import Mathlib.Data.List.TakeWhile
import Ctem.Foundation.LinkHeader

/-!
# Paged registry listings

The ACR and GHCR connectors list a registry page by page and stop behind the first page whose
`Link` header has no next link, as `nextRelFromLinkHeader` reads it.

* `NextTarget` says what a header has to look like for that.
* `listing_whole_iff`: a listing throws, or has yielded the whole registry, precisely when the
  pages it reads are those up to the first without a next link, but for pages without items.
-/

namespace Ctem
namespace Assets

open Foundation

/-! ## The header -/

/-- The text without the spaces at its beginning. -/
def dropSpaces (cs : List Char) : List Char := cs.dropWhile isJsSpace

/-- What is behind a word, in either letter case. -/
def afterWord (word : String) (cs : List Char) : Option (List Char) :=
  if (cs.take word.length).map Char.toLower = word.toList then some (cs.drop word.length)
  else none

def afterChar (c : Char) : List Char → Option (List Char)
  | [] => none
  | d :: rest => if d = c then some rest else none

/-- `/^\s*;\s*rel\s*=\s*"?next"?/i`. -/
def relNextAhead (cs : List Char) : Bool :=
  ((do
    let cs ← afterChar ';' (dropSpaces cs)
    let cs ← afterWord "rel" (dropSpaces cs)
    let cs ← afterChar '=' (dropSpaces cs)
    let cs := dropSpaces cs
    afterWord "next" ((afterChar '"' cs).getD cs)) : Option (List Char)).isSome

/-- The target that begins here, if a next relation is behind it. -/
def targetHere (cs : List Char) : Option (List Char) :=
  let target := cs.takeWhile fun c => decide (c ≠ '>')
  if target ≠ [] ∧ (afterChar '>' (cs.dropWhile fun c => decide (c ≠ '>'))).any relNextAhead = true
  then some target
  else none

/-- `part.match(/<([^>]+)>\s*;\s*rel\s*=\s*"?next"?/i)?.[1]`. -/
def matchNext : List Char → Option (List Char)
  | [] => none
  | c :: rest => if c = '<' then (targetHere rest).or (matchNext rest) else matchNext rest

/-- `nextRelFromLinkHeader`. -/
def nextRelFromLinkHeader (link : List Char) : Option (List Char) :=
  (splitOn ',' link).findSome? fun part =>
    ((matchNext part).map trimChars).filter fun href => decide (href ≠ [])

/-! ## The listing -/

/-- An answer of a registry: the entries of its body, and its `Link` header. -/
structure RegistryPage (γ : Type) where
  raw : List γ
  link : LinkHeader

/-- What a listing has yielded, and the error it ended with. -/
structure Listing (β : Type) where
  yielded : List β
  error : Option String
deriving DecidableEq

section Listing

variable {β γ : Type}

/-- How a connector lists. -/
structure Pager (β γ : Type) where
  /-- An entry as an item; some are skipped. -/
  item : γ → Option β
  /-- The allowlist of the URL of the next page. -/
  follow : List Char → Except String Unit
  maxPages : Nat
  truncated : String
  /-- An empty page ends the listing. -/
  stopsEmpty : Bool

/-- The items of a page. -/
def Pager.items (pager : Pager β γ) (page : RegistryPage γ) : List β :=
  page.raw.filterMap pager.item

/-- The loop, from a page number on.  The registry gives its answers in order; a request that
fails throws, and so does one past the last answer. -/
def Pager.list (pager : Pager β γ) : Nat → List (Except String (RegistryPage γ)) → Listing β
  | _, [] => ⟨[], some "request failed"⟩
  | _, .error message :: _ => ⟨[], some message⟩
  | number, .ok page :: rest =>
      if pager.stopsEmpty && page.raw.isEmpty then ⟨[], none⟩
      else
        match nextRelFromLinkHeader page.link.text with
        | none => ⟨pager.items page, none⟩
        | some next =>
            if number = pager.maxPages then ⟨pager.items page, some pager.truncated⟩
            else
              match pager.follow next with
              | .error message => ⟨pager.items page, some message⟩
              | .ok _ =>
                  let later := pager.list (number + 1) rest
                  ⟨pager.items page ++ later.yielded, later.error⟩

/-- `failTruncated`. -/
def truncatedMessage (provider label : String) (maxPages perPage : Nat) : String :=
  provider ++ " listing truncated at " ++ Nat.repr (maxPages * perPage) ++ " " ++ label ++
    " (page cap " ++ Nat.repr maxPages ++ "); refusing to archive unseen assets"

/-- `pagedAcr`, with `allowlistedAcrNextUrl` and the parser of the entries. -/
def pagedAcr (allowlistedAcrNextUrl : List Char → Except String Unit) (parse : γ → Option β)
    (label : String) : Pager β γ where
  item := parse
  follow := allowlistedAcrNextUrl
  maxPages := 20
  truncated := truncatedMessage "ACR" label 20 100
  stopsEmpty := false

/-- `pagedGet` of the GHCR connector, with `allowlistedGithubApiUrl`. -/
def pagedGet (allowlistedGithubApiUrl : List Char → Except String Unit) (parse : γ → Option β)
    (label : String) : Pager β γ where
  item := parse
  follow := allowlistedGithubApiUrl
  maxPages := 20
  truncated := truncatedMessage "GHCR" label 20 100
  stopsEmpty := true

end Listing

/-! ## What the header has to look like -/

/-- `; rel=next`, with the spaces and the quote that may stand in it. -/
def RelNext (cs : List Char) : Prop :=
  ∃ s₁ s₂ rel s₃ s₄ quote next,
    cs = s₁ ++ ';' :: (s₂ ++ (rel ++ (s₃ ++ '=' :: (s₄ ++ (quote ++ next))))) ∧
      (∀ c ∈ s₁ ++ s₂ ++ s₃ ++ s₄, isJsSpace c = true) ∧ rel.map Char.toLower = "rel".toList ∧
      (quote = [] ∨ quote = ['"']) ∧ next.map Char.toLower = "next".toList

/-- Behind `pre`, the text has a target between angle brackets with `; rel=next` behind it. -/
structure Mark (cs pre target : List Char) : Prop where
  nonempty : target ≠ []
  closed : '>' ∉ target
  found : ∃ mid rest, cs = pre ++ '<' :: (target ++ '>' :: (mid ++ rest)) ∧ RelNext mid

/-- The first target with `; rel=next` behind it. -/
def FirstMark (cs target : List Char) : Prop :=
  ∃ pre, Mark cs pre target ∧ ∀ pre' target', Mark cs pre' target' → pre.length ≤ pre'.length

/-- The target of the first stretch between commas that has a mark whose target is not blank. -/
def NextTarget (link href : List Char) : Prop :=
  ∃ before part behind target, splitOn ',' link = before ++ part :: behind ∧
    FirstMark part target ∧ href = trimChars target ∧ href ≠ [] ∧
    ∀ earlier ∈ before, ∀ t, FirstMark earlier t → trimChars t = []

section Header

theorem afterChar_eq_some {c : Char} {cs rest : List Char} :
    afterChar c cs = some rest ↔ cs = c :: rest := by
  cases cs with
  | nil => simp [afterChar]
  | cons d ds =>
      unfold afterChar
      by_cases h : d = c
      · simp [h]
      · simp [h]

theorem afterChar_cons (c : Char) (rest : List Char) : afterChar c (c :: rest) = some rest :=
  afterChar_eq_some.mpr rfl

theorem afterWord_eq_some {word : String} {cs rest : List Char} :
    afterWord word cs = some rest ↔ ∃ w, cs = w ++ rest ∧ w.map Char.toLower = word.toList := by
  unfold afterWord
  constructor
  · intro h
    split at h
    case isTrue htake =>
      refine ⟨cs.take word.length, ?_, htake⟩
      rw [← Option.some.inj h, List.take_append_drop]
    case isFalse => cases h
  · rintro ⟨w, rfl, hw⟩
    have hlength : w.length = word.length := by
      rw [← List.length_map (f := Char.toLower), hw, String.length_toList]
    rw [List.take_left' hlength, if_pos hw, List.drop_left' hlength]

/-- Spaces are no letters, in either case. -/
theorem toLower_of_isJsSpace {c : Char} (h : isJsSpace c = true) : c.toLower = c := by
  unfold Char.toLower
  split
  · rename_i hupper
    have hlow := UInt32.le_iff_toNat_le.mp hupper.1
    have hhigh := UInt32.le_iff_toNat_le.mp hupper.2
    have hA : 'A'.val.toNat = 65 := rfl
    have hZ : 'Z'.val.toNat = 90 := rfl
    have hnat : c.val.toNat = c.toNat := rfl
    unfold isJsSpace at h
    simp only [Bool.or_eq_true, Bool.and_eq_true, decide_eq_true_eq, List.mem_cons,
      List.not_mem_nil, or_false] at h
    omega
  · rfl

/-- Spaces before a character that is none. -/
theorem dropSpaces_append {s rest : List Char} (hspaces : ∀ c ∈ s, isJsSpace c = true)
    (hhead : ∀ c ∈ rest.head?, isJsSpace c = false) : dropSpaces (s ++ rest) = rest := by
  unfold dropSpaces
  rw [List.dropWhile_append_of_pos hspaces]
  cases rest with
  | nil => rfl
  | cons c rest =>
      rw [List.dropWhile_cons, if_neg]
      rw [hhead c rfl]
      exact Bool.false_ne_true

theorem spaces_dropSpaces (cs : List Char) :
    ∃ s, cs = s ++ dropSpaces cs ∧ ∀ c ∈ s, isJsSpace c = true :=
  ⟨cs.takeWhile isJsSpace, (List.takeWhile_append_dropWhile).symm, fun _ hc =>
    List.mem_takeWhile_imp hc⟩

/-- A word does not begin with a space. -/
theorem head_word {w word rest : List Char} (hw : w.map Char.toLower = word)
    (hword : ∀ c ∈ word.head?, isJsSpace c = false) (hne : word ≠ []) :
    ∀ c ∈ (w ++ rest).head?, isJsSpace c = false := by
  cases w with
  | nil => exact absurd hw.symm hne
  | cons d ds =>
      intro c hc
      obtain rfl := Option.some.inj hc
      rw [Bool.eq_false_iff]
      intro hspace
      have hhead := hword d.toLower (by rw [← hw]; rfl)
      rw [toLower_of_isJsSpace hspace] at hhead
      rw [hhead] at hspace
      cases hspace

theorem relNextAhead_iff {cs : List Char} :
    relNextAhead cs = true ↔ ∃ mid rest, cs = mid ++ rest ∧ RelNext mid := by
  unfold relNextAhead
  constructor
  · intro h
    obtain ⟨rest, h⟩ := Option.isSome_iff_exists.mp h
    obtain ⟨cs₁, h₁, h⟩ := Option.bind_eq_some_iff.mp h
    obtain ⟨cs₂, h₂, h⟩ := Option.bind_eq_some_iff.mp h
    obtain ⟨cs₃, h₃, h⟩ := Option.bind_eq_some_iff.mp h
    obtain ⟨s₁, hs₁, hspaces₁⟩ := spaces_dropSpaces cs
    obtain ⟨s₂, hs₂, hspaces₂⟩ := spaces_dropSpaces cs₁
    obtain ⟨s₃, hs₃, hspaces₃⟩ := spaces_dropSpaces cs₂
    obtain ⟨s₄, hs₄, hspaces₄⟩ := spaces_dropSpaces cs₃
    rw [afterChar_eq_some] at h₁ h₃
    obtain ⟨rel, hrel, hrelWord⟩ := afterWord_eq_some.mp h₂
    obtain ⟨next, hnext, hnextWord⟩ := afterWord_eq_some.mp h
    have hquote : ∃ quote, (quote = [] ∨ quote = ['"']) ∧
        dropSpaces cs₃ = quote ++ (afterChar '"' (dropSpaces cs₃)).getD (dropSpaces cs₃) := by
      cases hafter : afterChar '"' (dropSpaces cs₃) with
      | none => exact ⟨[], Or.inl rfl, rfl⟩
      | some unquoted => exact ⟨['"'], Or.inr rfl, afterChar_eq_some.mp hafter⟩
    obtain ⟨quote, hquote, hdrop⟩ := hquote
    refine ⟨s₁ ++ ';' :: (s₂ ++ (rel ++ (s₃ ++ '=' :: (s₄ ++ (quote ++ next))))), rest, ?_,
      s₁, s₂, rel, s₃, s₄, quote, next, rfl, ?_, hrelWord, hquote, hnextWord⟩
    · rw [hs₁, h₁, hs₂, hrel, hs₃, h₃, hs₄, hdrop, hnext]
      simp
    · intro c hc
      simp only [List.mem_append] at hc
      rcases hc with ((hc | hc) | hc) | hc
      · exact hspaces₁ c hc
      · exact hspaces₂ c hc
      · exact hspaces₃ c hc
      · exact hspaces₄ c hc
  · rintro ⟨mid, rest, rfl, s₁, s₂, rel, s₃, s₄, quote, next, rfl, hspaces, hrel, hquote, hnext⟩
    simp only [List.mem_append] at hspaces
    have h₁ : dropSpaces (s₁ ++ ';' :: (s₂ ++ (rel ++ (s₃ ++ '=' :: (s₄ ++ (quote ++ next))))) ++
        rest) = ';' :: (s₂ ++ (rel ++ (s₃ ++ '=' :: (s₄ ++ (quote ++ (next ++ rest)))))) := by
      rw [List.append_assoc, dropSpaces_append (fun c hc => hspaces c (by simp [hc]))]
      · simp
      · intro c hc
        obtain rfl := Option.some.inj hc
        decide
    have h₂ : dropSpaces (s₂ ++ (rel ++ (s₃ ++ '=' :: (s₄ ++ (quote ++ (next ++ rest)))))) =
        rel ++ (s₃ ++ '=' :: (s₄ ++ (quote ++ (next ++ rest)))) :=
      dropSpaces_append (fun c hc => hspaces c (by simp [hc]))
        (head_word hrel (by intro c hc; obtain rfl := Option.some.inj hc; decide) (by decide))
    have h₃ : dropSpaces (s₃ ++ '=' :: (s₄ ++ (quote ++ (next ++ rest)))) =
        '=' :: (s₄ ++ (quote ++ (next ++ rest))) := by
      refine dropSpaces_append (fun c hc => hspaces c (by simp [hc])) ?_
      intro c hc
      obtain rfl := Option.some.inj hc
      decide
    have hhead : ∀ c ∈ (next ++ rest).head?, isJsSpace c = false := head_word hnext
      (by intro c hc; obtain rfl := Option.some.inj hc; decide) (by decide)
    have h₄ : dropSpaces (s₄ ++ (quote ++ (next ++ rest))) = quote ++ (next ++ rest) := by
      refine dropSpaces_append (fun c hc => hspaces c (by simp [hc])) ?_
      rcases hquote with rfl | rfl
      · exact hhead
      · intro c hc
        obtain rfl := Option.some.inj hc
        decide
    have hunquoted : (afterChar '"' (quote ++ (next ++ rest))).getD (quote ++ (next ++ rest)) =
        next ++ rest := by
      rcases hquote with rfl | rfl
      · cases next with
        | nil => cases hnext
        | cons c next =>
            have hne : c ≠ '"' := by
              rintro rfl
              exact absurd (List.cons.inj hnext).1 (by decide)
            show (if c = '"' then some (next ++ rest) else none).getD (c :: (next ++ rest)) = _
            rw [if_neg hne]
            rfl
      · rfl
    have hrelAfter : afterWord "rel" (rel ++ (s₃ ++ '=' :: (s₄ ++ (quote ++ (next ++ rest))))) =
        some (s₃ ++ '=' :: (s₄ ++ (quote ++ (next ++ rest)))) :=
      afterWord_eq_some.mpr ⟨rel, rfl, hrel⟩
    have hnextAfter : afterWord "next" (next ++ rest) = some rest :=
      afterWord_eq_some.mpr ⟨next, rfl, hnext⟩
    simp only [Option.bind_eq_bind]
    rw [h₁, afterChar_cons, Option.bind_some, h₂, hrelAfter, Option.bind_some, h₃,
      afterChar_cons, Option.bind_some, h₄, hunquoted, hnextAfter]
    rfl

/-- A target that begins here is closed before anything else. -/
theorem targetHere_eq_some {cs target : List Char} :
    targetHere cs = some target ↔ target ≠ [] ∧ '>' ∉ target ∧
      ∃ rest, cs = target ++ '>' :: rest ∧ relNextAhead rest = true := by
  have hopen : ∀ c ∈ cs.takeWhile (fun c => decide (c ≠ '>')), c ≠ '>' := by
    intro c hc
    exact of_decide_eq_true (List.mem_takeWhile_imp (p := fun c => decide (c ≠ '>')) hc)
  unfold targetHere
  constructor
  · intro h
    simp only at h
    split at h
    case isTrue hfound =>
      obtain rfl := Option.some.inj h
      obtain ⟨hne, hany⟩ := hfound
      cases hrest : afterChar '>' (cs.dropWhile fun c => decide (c ≠ '>')) with
      | none =>
          rw [hrest] at hany
          cases hany
      | some rest =>
          rw [hrest, Option.any_some] at hany
          refine ⟨hne, fun hmem => hopen _ hmem rfl, rest, ?_, hany⟩
          rw [← afterChar_eq_some.mp hrest, List.takeWhile_append_dropWhile]
    case isFalse => cases h
  · rintro ⟨hne, hclosed, rest, rfl, hahead⟩
    have hall : ∀ c ∈ target, decide (c ≠ '>') = true := by
      intro c hc
      refine decide_eq_true ?_
      rintro rfl
      exact hclosed hc
    have htake : (target ++ '>' :: rest).takeWhile (fun c => decide (c ≠ '>')) = target := by
      rw [List.takeWhile_append_of_pos hall, List.takeWhile_cons, if_neg (by decide),
        List.append_nil]
    have hdrop : (target ++ '>' :: rest).dropWhile (fun c => decide (c ≠ '>')) = '>' :: rest := by
      rw [List.dropWhile_append_of_pos hall, List.dropWhile_cons, if_neg (by decide)]
    simp only [htake, hdrop, afterChar_cons]
    rw [if_pos ⟨hne, hahead⟩]

theorem mark_nil_iff {cs target : List Char} :
    Mark cs [] target ↔ ∃ rest, cs = '<' :: rest ∧ targetHere rest = some target := by
  constructor
  · rintro ⟨hne, hclosed, mid, rest, heq, hmid⟩
    refine ⟨_, heq, targetHere_eq_some.mpr ⟨hne, hclosed, _, rfl, ?_⟩⟩
    exact relNextAhead_iff.mpr ⟨mid, rest, rfl, hmid⟩
  · rintro ⟨rest, rfl, htarget⟩
    obtain ⟨hne, hclosed, behind, rfl, hahead⟩ := targetHere_eq_some.mp htarget
    obtain ⟨mid, behind', rfl, hmid⟩ := relNextAhead_iff.mp hahead
    exact ⟨hne, hclosed, mid, behind', rfl, hmid⟩

theorem mark_cons_iff {c : Char} {cs pre target : List Char} :
    Mark (c :: cs) (c :: pre) target ↔ Mark cs pre target := by
  constructor
  · rintro ⟨hne, hclosed, mid, rest, heq, hmid⟩
    exact ⟨hne, hclosed, mid, rest, (List.cons.inj heq).2, hmid⟩
  · rintro ⟨hne, hclosed, mid, rest, heq, hmid⟩
    exact ⟨hne, hclosed, mid, rest, by rw [heq]; rfl, hmid⟩

/-- A mark is at the beginning, or further on. -/
theorem mark_cases {c : Char} {cs pre target : List Char} (h : Mark (c :: cs) pre target) :
    (pre = [] ∧ c = '<' ∧ targetHere cs = some target) ∨
      ∃ pre', pre = c :: pre' ∧ Mark cs pre' target := by
  cases pre with
  | nil =>
      obtain ⟨rest, heq, htarget⟩ := mark_nil_iff.mp h
      obtain ⟨rfl, rfl⟩ := List.cons.inj heq
      exact Or.inl ⟨rfl, rfl, htarget⟩
  | cons d pre' =>
      obtain ⟨mid, rest, heq, -⟩ := h.found
      obtain ⟨rfl, -⟩ := List.cons.inj heq
      exact Or.inr ⟨pre', rfl, mark_cons_iff.mp h⟩

/-- The search finds the first mark, if there is one. -/
theorem matchNext_spec (cs : List Char) :
    (matchNext cs = none ∧ ∀ pre target, ¬ Mark cs pre target) ∨
      ∃ target, matchNext cs = some target ∧ FirstMark cs target := by
  induction cs with
  | nil =>
      left
      refine ⟨rfl, ?_⟩
      rintro pre target ⟨-, -, mid, rest, heq, -⟩
      cases pre <;> cases heq
  | cons c cs ih =>
      by_cases hhere : c = '<' ∧ (targetHere cs).isSome = true
      · -- the mark is here
        obtain ⟨rfl, hsome⟩ := hhere
        obtain ⟨target, htarget⟩ := Option.isSome_iff_exists.mp hsome
        right
        refine ⟨target, ?_, [], mark_nil_iff.mpr ⟨cs, rfl, htarget⟩, fun _ _ _ => Nat.zero_le _⟩
        rw [matchNext, if_pos rfl, htarget]
        rfl
      · have hskip : matchNext (c :: cs) = matchNext cs := by
          rw [matchNext]
          split
          case isTrue hbracket =>
            cases htarget : targetHere cs with
            | none => rfl
            | some target => exact absurd ⟨hbracket, by rw [htarget]; rfl⟩ hhere
          case isFalse => rfl
        have hlater : ∀ pre target, Mark (c :: cs) pre target →
            ∃ pre', pre = c :: pre' ∧ Mark cs pre' target := by
          intro pre target hmark
          refine (mark_cases hmark).resolve_left ?_
          rintro ⟨-, hbracket, htarget⟩
          exact hhere ⟨hbracket, by rw [htarget]; rfl⟩
        rw [hskip]
        refine ih.imp ?_ ?_
        · rintro ⟨hnone, hno⟩
          refine ⟨hnone, ?_⟩
          intro pre target hmark
          obtain ⟨pre', -, hmark'⟩ := hlater pre target hmark
          exact hno pre' target hmark'
        · rintro ⟨target, hsome, pre, hmark, hfirst⟩
          refine ⟨target, hsome, c :: pre, mark_cons_iff.mpr hmark, ?_⟩
          intro pre' target' hmark'
          obtain ⟨pre'', rfl, hmark''⟩ := hlater pre' target' hmark'
          exact Nat.succ_le_succ (hfirst pre'' target' hmark'')

/-- Behind the same text there is one target. -/
theorem mark_unique {cs pre pre' target target' : List Char} (h : Mark cs pre target)
    (h' : Mark cs pre' target') (hlength : pre.length = pre'.length) : target = target' := by
  obtain ⟨hne, hclosed, mid, rest, heq, hmid⟩ := h
  obtain ⟨hne', hclosed', mid', rest', heq', hmid'⟩ := h'
  rw [heq] at heq'
  obtain ⟨-, hbehind⟩ := List.append_inj heq' hlength
  obtain ⟨-, hbehind⟩ := List.cons.inj hbehind
  have htarget : targetHere (target ++ '>' :: (mid ++ rest)) = some target :=
    targetHere_eq_some.mpr ⟨hne, hclosed, _, rfl, relNextAhead_iff.mpr ⟨mid, rest, rfl, hmid⟩⟩
  have htarget' : targetHere (target' ++ '>' :: (mid' ++ rest')) = some target' :=
    targetHere_eq_some.mpr ⟨hne', hclosed', _, rfl,
      relNextAhead_iff.mpr ⟨mid', rest', rfl, hmid'⟩⟩
  rw [hbehind, htarget'] at htarget
  exact (Option.some.inj htarget).symm

/-- The search finds the first mark. -/
theorem matchNext_eq_some {cs target : List Char} :
    matchNext cs = some target ↔ FirstMark cs target := by
  constructor
  · intro h
    rcases matchNext_spec cs with ⟨hnone, -⟩ | ⟨target', hsome, hfirst⟩
    · rw [hnone] at h
      cases h
    · rw [hsome] at h
      rw [← Option.some.inj h]
      exact hfirst
  · rintro ⟨pre, hmark, hfirst⟩
    rcases matchNext_spec cs with ⟨-, hno⟩ | ⟨target', hsome, pre', hmark', hfirst'⟩
    · exact absurd hmark (hno pre target)
    · rw [hsome, mark_unique hmark' hmark (Nat.le_antisymm (hfirst' _ _ hmark)
        (hfirst _ _ hmark'))]

/-- The function reads the header as `NextTarget` says. -/
theorem nextRelFromLinkHeader_eq_some {link href : List Char} :
    nextRelFromLinkHeader link = some href ↔ NextTarget link href := by
  have hpart : ∀ {part href : List Char},
      ((matchNext part).map trimChars).filter (fun href => decide (href ≠ [])) = some href ↔
        ∃ target, FirstMark part target ∧ href = trimChars target ∧ href ≠ [] := by
    intro part href
    rw [Option.filter_eq_some_iff, Option.map_eq_some_iff, decide_eq_true_eq]
    constructor
    · rintro ⟨⟨target, hmatch, rfl⟩, hne⟩
      exact ⟨target, matchNext_eq_some.mp hmatch, rfl, hne⟩
    · rintro ⟨target, hfirst, rfl, hne⟩
      exact ⟨⟨target, matchNext_eq_some.mpr hfirst, rfl⟩, hne⟩
  have hblank : ∀ {part : List Char},
      ((matchNext part).map trimChars).filter (fun href => decide (href ≠ [])) = none ↔
        ∀ t, FirstMark part t → trimChars t = [] := by
    intro part
    rw [Option.eq_none_iff_forall_ne_some]
    constructor
    · intro h t hfirst
      by_contra hne
      exact h _ (hpart.mpr ⟨t, hfirst, rfl, hne⟩)
    · intro h href hsome
      obtain ⟨t, hfirst, rfl, hne⟩ := hpart.mp hsome
      exact hne (h t hfirst)
  unfold nextRelFromLinkHeader
  rw [List.findSome?_eq_some_iff]
  constructor
  · rintro ⟨before, part, behind, hsplit, hsome, hbefore⟩
    obtain ⟨target, hfirst, hhref, hne⟩ := hpart.mp hsome
    exact ⟨before, part, behind, target, hsplit, hfirst, hhref, hne,
      fun earlier hearlier => hblank.mp (hbefore earlier hearlier)⟩
  · rintro ⟨before, part, behind, target, hsplit, hfirst, hhref, hne, hbefore⟩
    exact ⟨before, part, behind, hsplit, hpart.mpr ⟨target, hfirst, hhref, hne⟩,
      fun earlier hearlier => hblank.mpr (hbefore earlier hearlier)⟩

end Header

/-! ## The pages that are read -/

section Whole

variable {β γ : Type} (pager : Pager β γ)

/-- The pages up to the first without a next link, where the registry gives them all. -/
def wholeListing : List (Except String (RegistryPage γ)) → Option (List (RegistryPage γ))
  | [] => none
  | .error _ :: _ => none
  | .ok page :: rest =>
      if page.link.hasNext then (wholeListing rest).map (page :: ·) else some [page]

/-- Nothing behind this page is asked for: no target is found, or it is empty and that ends the
listing. -/
def Pager.Ends (page : RegistryPage γ) : Prop :=
  (∀ next, ¬ NextTarget page.link.text next) ∨ (pager.stopsEmpty = true ∧ page.raw = [])

/-- From a page number on, these pages are asked for, and the last of them ends the listing. -/
inductive Pager.Reads : Nat → List (Except String (RegistryPage γ)) → List (RegistryPage γ) → Prop
  | last {number page rest} (hends : pager.Ends page) : Reads number (.ok page :: rest) [page]
  | more {number page rest later next} (hends : ¬ pager.Ends page)
      (htarget : NextTarget page.link.text next) (hcap : number ≠ pager.maxPages)
      (hallowed : ∃ u, pager.follow next = .ok u) (hlater : Reads (number + 1) rest later) :
      Reads number (.ok page :: rest) (page :: later)

/-- The same pages, but for pages without items at the end of either. -/
def Pager.SameItems (read whole : List (RegistryPage γ)) : Prop :=
  ∃ extra, (whole = read ++ extra ∨ read = whole ++ extra) ∧ ∀ page ∈ extra, pager.items page = []

/-- The listing throws, or has yielded every item of every page up to the first without a next
link, in order. -/
def Pager.Complete (answers : List (Except String (RegistryPage γ))) : Prop :=
  (pager.list 1 answers).error.isSome = true ∨
    ∃ whole, wholeListing answers = some whole ∧
      (pager.list 1 answers).yielded = whole.flatMap pager.items

/-- The pages that are asked for make the whole listing, but for pages without items. -/
def Pager.ReadsWhole (answers : List (Except String (RegistryPage γ))) : Prop :=
  ∀ read, pager.Reads 1 answers read →
    ∃ whole, wholeListing answers = some whole ∧ pager.SameItems read whole

variable {pager} {answers : List (Except String (RegistryPage γ))}

/-- The loop returns behind the pages it reads, or throws. -/
theorem Pager.list_cases (number : Nat) (answers : List (Except String (RegistryPage γ))) :
    (∃ read, pager.Reads number answers read ∧
      pager.list number answers = ⟨read.flatMap pager.items, none⟩) ∨
        (pager.list number answers).error.isSome = true ∧ ∀ read, ¬ pager.Reads number answers read := by
  induction answers generalizing number with
  | nil =>
      right
      refine ⟨rfl, ?_⟩
      intro read h
      cases h
  | cons answer rest ih =>
      cases answer with
      | error message =>
          right
          refine ⟨rfl, ?_⟩
          intro read h
          cases h
      | ok page =>
          by_cases hempty : pager.stopsEmpty = true ∧ page.raw = []
          · left
            refine ⟨[page], .last (Or.inr hempty), ?_⟩
            rw [Pager.list, if_pos (by simp [hempty]), List.flatMap_singleton, Pager.items, hempty.2]
            rfl
          · have hnot : ¬ (pager.stopsEmpty && page.raw.isEmpty) = true := by
              rw [Bool.and_eq_true, List.isEmpty_iff]
              exact hempty
            rw [Pager.list, if_neg hnot]
            cases hnext : nextRelFromLinkHeader page.link.text with
            | none =>
                left
                refine ⟨[page], .last (Or.inl ?_), by rw [List.flatMap_singleton]⟩
                intro next htarget
                rw [← nextRelFromLinkHeader_eq_some, hnext] at htarget
                cases htarget
            | some next =>
                have htarget := nextRelFromLinkHeader_eq_some.mp hnext
                have hgoes : ¬ pager.Ends page := by
                  rintro (hno | hends)
                  · exact hno next htarget
                  · exact hempty hends
                -- a listing that goes on has followed this link
                have honly : ∀ read, pager.Reads number (.ok page :: rest) read →
                    number ≠ pager.maxPages ∧ (∃ u, pager.follow next = .ok u) ∧
                      ∃ later, read = page :: later ∧ pager.Reads (number + 1) rest later := by
                  intro read h
                  cases h with
                  | last hends => exact absurd hends hgoes
                  | more _ htarget' hcap hallowed hlater =>
                      rw [← nextRelFromLinkHeader_eq_some, hnext, Option.some_inj] at htarget'
                      subst htarget'
                      exact ⟨hcap, hallowed, _, rfl, hlater⟩
                simp only
                split
                · rename_i hcap
                  exact Or.inr ⟨rfl, fun read h => (honly read h).1 hcap⟩
                · rename_i hcap
                  cases hfollow : pager.follow next with
                  | error message =>
                      right
                      refine ⟨rfl, ?_⟩
                      intro read h
                      obtain ⟨-, ⟨u, hu⟩, -⟩ := honly read h
                      rw [hfollow] at hu
                      cases hu
                  | ok u =>
                      simp only
                      rcases ih (number + 1) with ⟨later, hlater, hlist⟩ | ⟨herror, hno⟩
                      · left
                        refine ⟨page :: later, .more hgoes htarget hcap ⟨u, hfollow⟩ hlater, ?_⟩
                        rw [hlist, List.flatMap_cons]
                      · right
                        refine ⟨herror, ?_⟩
                        intro read h
                        obtain ⟨-, -, later, -, hlater⟩ := honly read h
                        exact hno later hlater

/-- The pages that are read come first. -/
theorem Pager.Reads.isPrefix {number : Nat} {read : List (RegistryPage γ)}
    (h : pager.Reads number answers read) : read.map Except.ok <+: answers := by
  induction h with
  | last hends => exact ⟨_, rfl⟩
  | more _ _ _ _ _ ih => exact List.cons_prefix_cons.mpr ⟨rfl, ih⟩

theorem wholeListing_isPrefix {whole : List (RegistryPage γ)}
    (h : wholeListing answers = some whole) : whole.map Except.ok <+: answers := by
  induction answers generalizing whole with
  | nil => cases h
  | cons answer rest ih =>
      cases answer with
      | error message => cases h
      | ok page =>
          rw [wholeListing] at h
          split at h
          · obtain ⟨later, hlater, rfl⟩ := Option.map_eq_some_iff.mp h
            exact List.cons_prefix_cons.mpr ⟨rfl, ih hlater⟩
          · obtain rfl := Option.some.inj h
            exact ⟨rest, rfl⟩

/-- Pages that come first have the same items if what one has more than the other is empty. -/
theorem flatMap_items_eq_iff {read whole : List (RegistryPage γ)}
    (hread : read.map Except.ok <+: answers) (hwhole : whole.map Except.ok <+: answers) :
    read.flatMap pager.items = whole.flatMap pager.items ↔ pager.SameItems read whole := by
  have hinj : Function.Injective (Except.ok : RegistryPage γ → Except String (RegistryPage γ)) :=
    fun _ _ h => Except.ok.inj h
  have hempty : ∀ (pages extra : List (RegistryPage γ)),
      (pages ++ extra).flatMap pager.items = pages.flatMap pager.items ↔
        ∀ page ∈ extra, pager.items page = [] := by
    intro pages extra
    rw [List.flatMap_append, List.append_right_eq_self, List.flatMap_eq_nil_iff]
  constructor
  · intro heq
    rcases List.prefix_or_prefix_of_prefix hread hwhole with hle | hle
    · obtain ⟨extra, rfl⟩ := (List.prefix_map_iff_of_injective hinj).mp hle
      exact ⟨extra, Or.inl rfl, (hempty read extra).mp heq.symm⟩
    · obtain ⟨extra, rfl⟩ := (List.prefix_map_iff_of_injective hinj).mp hle
      exact ⟨extra, Or.inr rfl, (hempty whole extra).mp heq⟩
  · rintro ⟨extra, rfl | rfl, hextra⟩
    · exact ((hempty read extra).mpr hextra).symm
    · exact (hempty whole extra).mpr hextra

/-- What is read is determined. -/
theorem Pager.Reads.unique {number : Nat} {read read' : List (RegistryPage γ)}
    (h : pager.Reads number answers read) (h' : pager.Reads number answers read') : read = read' := by
  induction h generalizing read' with
  | last hends =>
      cases h' with
      | last => rfl
      | more hgoes => exact absurd hends hgoes
  | more hgoes _ _ _ _ ih =>
      cases h' with
      | last hends => exact absurd hends hgoes
      | more _ _ _ _ hlater => rw [ih hlater]

/-- **Whole listings.**  A listing throws or is whole precisely when what it asks for is, but for
pages without items. -/
theorem Pager.complete_iff : pager.Complete answers ↔ pager.ReadsWhole answers := by
  unfold Pager.Complete Pager.ReadsWhole
  rcases pager.list_cases 1 answers with ⟨read, hread, hlist⟩ | ⟨herror, hno⟩
  · rw [hlist]
    constructor
    · rintro (herror | ⟨whole, hwhole, hitems⟩) read' hread'
      · cases herror
      · rw [hread'.unique hread]
        exact ⟨whole, hwhole,
          (flatMap_items_eq_iff hread.isPrefix (wholeListing_isPrefix hwhole)).mp hitems⟩
    · intro h
      obtain ⟨whole, hwhole, hsame⟩ := h read hread
      exact Or.inr ⟨whole, hwhole,
        (flatMap_items_eq_iff hread.isPrefix (wholeListing_isPrefix hwhole)).mpr hsame⟩
  · exact iff_of_true (Or.inl herror) fun read hread => absurd hread (hno read)

end Whole

/-- **Registry listings.**  The ACR and the GHCR listing throw, or yield every item of every page
up to the first without a next link, precisely when the page behind which they stop asking is
that one, but for pages without items between the two. -/
theorem listings_whole_iff {β γ : Type} (allowlistedAcrNextUrl : List Char → Except String Unit)
    (allowlistedGithubApiUrl : List Char → Except String Unit) (parse : γ → Option β)
    (label : String) (answers : List (Except String (RegistryPage γ))) :
    ((pagedAcr allowlistedAcrNextUrl parse label).Complete answers ↔
      (pagedAcr allowlistedAcrNextUrl parse label).ReadsWhole answers) ∧
    ((pagedGet allowlistedGithubApiUrl parse label).Complete answers ↔
      (pagedGet allowlistedGithubApiUrl parse label).ReadsWhole answers) :=
  ⟨Pager.complete_iff, Pager.complete_iff⟩

/-- `; name=value`, without spaces but one behind the semicolon. -/
def plainParam (name value : String) (hname : name.toList ≠ [] ∧ name.toList.all isTokenChar = true)
    (hvalue : value.toList ≠ [] ∧ value.toList.all isTokenChar = true) : LinkParam where
  name := name.toList
  value := some (.token value.toList hvalue)
  afterSemicolon := [' ']
  isToken := hname
  blanks := by
    refine ⟨?_, ?_, ?_, ?_⟩ <;> intro c hc
    · cases hc
    · exact Or.inl (List.mem_singleton.mp hc)
    · cases hc
    · cases hc

/-- `</b>; title=second; rel=next`. -/
def titledNext : LinkValue where
  target := "/b".toList
  params := [plainParam "title" "second" (by decide) (by decide),
    plainParam "rel" "next" (by decide) (by decide)]
  isReference := by
    show ∀ c ∈ ['/', 'b'], _
    rw [List.forall_mem_cons, List.forall_mem_singleton]
    decide
  blanks := ⟨fun _ h => absurd h List.not_mem_nil, fun _ h => absurd h List.not_mem_nil⟩

/-- Two pages, the first of which links the second. -/
def titledPages : List (Except String (RegistryPage Nat)) :=
  [.ok ⟨[1], [titledNext]⟩, .ok ⟨[2], []⟩]

/-- A next link whose relation is not its first parameter ends the listing. -/
theorem titled_next_missed :
    (pagedAcr (fun _ => .ok ()) some "catalog").list 1 titledPages = ⟨[1], none⟩ ∧
      ¬ ∀ (allow : List Char → Except String Unit) (answers : List (Except String (RegistryPage Nat))),
        (pagedAcr allow some "catalog").Complete answers := by
  have hlist : (pagedAcr (fun _ => .ok ()) some "catalog").list 1 titledPages =
      (⟨[1], none⟩ : Listing Nat) := by decide +kernel
  refine ⟨hlist, ?_⟩
  intro hall
  rcases hall (fun _ => .ok ()) titledPages with herror | ⟨whole, hwhole, hitems⟩
  · rw [hlist] at herror
    cases herror
  · have hboth : wholeListing titledPages = some [⟨[1], [titledNext]⟩, ⟨[2], []⟩] := rfl
    rw [hboth, Option.some_inj] at hwhole
    rw [hlist, ← hwhole] at hitems
    exact absurd hitems (by decide)

end Assets
end Ctem
