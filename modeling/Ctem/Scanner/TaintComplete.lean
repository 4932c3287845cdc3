import Mathlib.Data.List.Infix
import Mathlib.Data.List.Induction
import Ctem.Scanner.TaintLines

/-!
# Which bindings the tracker follows

Straight-line JavaScript: every line assigns an expression to an identifier or takes an object
apart.

* `Tainted` is the rule: what is bound from request data, or from what was bound so above, is
  tainted.
* `TaintLine.Reads` says that the patterns find what a line binds.
* `tainted_complete`: the tracker finds every tainted identifier of a file whose tainted lines
  are read, and for a line on its own this is also necessary.
-/

namespace Ctem
namespace Scanner

open Foundation

/-- The file of these lines. -/
def fileText (lines : List TaintLine) : List Char :=
  ['\n'].intercalate (lines.map TaintLine.text)

/-! ## The rule -/

/-- The expression has the text of a source in it. -/
def MentionsSource (expr : List Char) : Prop :=
  ∃ kind ∈ jsSources, ∃ before behind, expr = before ++ kind.toList ++ behind

/-- The expression has the identifier in it, and not as part of a longer one. -/
def Mentions (name expr : List Char) : Prop :=
  ∃ before behind, expr = before ++ name ++ behind ∧
    (∀ c, before.getLast? = some c → isJsIdentChar c = false) ∧
    (∀ c, behind.head? = some c → isJsIdentChar c = false)

/-- What is bound from a source, or from what was so bound on an earlier line. -/
inductive Tainted : List TaintLine → List Char → Prop where
  | source {above : List TaintLine} {line : TaintLine} {below : List TaintLine} {id : List Char}
      (hsource : MentionsSource line.expr) (hid : id ∈ line.binds) :
      Tainted (above ++ line :: below) id
  | passed {above : List TaintLine} {line : TaintLine} {below : List TaintLine}
      {id name : List Char} (hname : Tainted above name) (hmentions : Mentions name line.expr)
      (hid : id ∈ line.binds) : Tainted (above ++ line :: below) id

/-- The line binds from a tainted expression. -/
def TaintedLine (above : List TaintLine) (line : TaintLine) : Prop :=
  MentionsSource line.expr ∨ ∃ name, Tainted above name ∧ Mentions name line.expr

/-- The tracker has every tainted identifier. -/
def Complete (lines : List TaintLine) : Prop :=
  ∀ id, Tainted lines id → id ∈ (taintedMap (fileText lines) .javascript).keys

/-- A line with the bindings and the mentions of another. -/
structure KeepsLine (line line' : TaintLine) : Prop where
  binds : line'.binds = line.binds
  source : MentionsSource line.expr → MentionsSource line'.expr
  mentions : ∀ name, Mentions name line.expr → Mentions name line'.expr

/-- The comments are blanked, and with them no binding and no mention. -/
def Stripped (lines lines' : List TaintLine) : Prop :=
  stripCommentsPreserve (fileText lines) .javascript = fileText lines' ∧
    List.Forall₂ KeepsLine lines lines'

/-- What is tainted stays so. -/
theorem Tainted.keeps {lines lines' : List TaintLine} {id : List Char} (h : Tainted lines id)
    (hkeeps : List.Forall₂ KeepsLine lines lines') : Tainted lines' id := by
  have hsplit : ∀ {above : List TaintLine} {line : TaintLine} {below lines' : List TaintLine},
      List.Forall₂ KeepsLine (above ++ line :: below) lines' →
        ∃ above' line' below', lines' = above' ++ line' :: below' ∧
          List.Forall₂ KeepsLine above above' ∧ KeepsLine line line' := by
    intro above line below
    induction above with
    | nil =>
        intro lines' hall
        cases hall with
        | cons hline _ => exact ⟨[], _, _, rfl, .nil, hline⟩
    | cons first above ih =>
        intro lines' hall
        cases hall with
        | cons hfirst hrest =>
            obtain ⟨above', line', below', rfl, habove, hline⟩ := ih hrest
            exact ⟨_ :: above', line', below', rfl, .cons hfirst habove, hline⟩
  induction h generalizing lines' with
  | source hsource hid =>
      obtain ⟨above', line', below', rfl, -, hline⟩ := hsplit hkeeps
      exact .source (hline.source hsource) (hline.binds ▸ hid)
  | passed hname hmentions hid ih =>
      obtain ⟨above', line', below', rfl, habove, hline⟩ := hsplit hkeeps
      exact .passed (ih habove) (hline.mentions _ hmentions) (hline.binds ▸ hid)

/-- What is tainted with one more line. -/
theorem Tainted.concat_cases {above : List TaintLine} {line : TaintLine} {id : List Char}
    (h : Tainted (above ++ [line]) id) :
    Tainted above id ∨ TaintedLine above line ∧ id ∈ line.binds := by
  have hsplit : ∀ {above' below : List TaintLine} {line' : TaintLine},
      above' ++ line' :: below = above ++ [line] →
        (above' = above ∧ line' = line) ∨ ∃ below', above = above' ++ line' :: below' := by
    intro above' below line' heq
    cases below using List.reverseRecOn with
    | nil =>
        obtain ⟨rfl, hline⟩ := List.append_inj' heq rfl
        exact Or.inl ⟨rfl, List.singleton_inj.mp hline⟩
    | append_singleton below last =>
        refine Or.inr ⟨below, ?_⟩
        have heq' : (above' ++ line' :: below) ++ [last] = above ++ [line] := by
          rw [← heq, List.append_assoc, List.cons_append]
        exact (List.append_inj' heq' rfl).1.symm
  generalize hlines : above ++ [line] = lines at h
  cases h with
  | source hsource hid =>
      rcases hsplit hlines.symm with ⟨rfl, rfl⟩ | ⟨below', rfl⟩
      · exact Or.inr ⟨Or.inl hsource, hid⟩
      · exact Or.inl (.source hsource hid)
  | passed hname hmentions hid =>
      rcases hsplit hlines.symm with ⟨rfl, rfl⟩ | ⟨below', rfl⟩
      · exact Or.inr ⟨Or.inr ⟨_, hname, hmentions⟩, hid⟩
      · exact Or.inl (.passed hname hmentions hid)

/-! ## Expressions -/

theorem occursIn_iff {part cs : List Char} :
    occursIn part cs = true ↔ ∃ before behind, cs = before ++ part ++ behind := by
  unfold occursIn
  rw [List.any_eq_true]
  simp only [List.mem_tails, List.isPrefixOf_iff_prefix]
  constructor
  · rintro ⟨rest, ⟨before, rfl⟩, ⟨behind, rfl⟩⟩
    exact ⟨before, behind, (List.append_assoc _ _ _).symm⟩
  · rintro ⟨before, behind, rfl⟩
    exact ⟨part ++ behind, ⟨before, (List.append_assoc _ _ _).symm⟩, behind, rfl⟩

/-- A character that is in no identifier is a boundary for the tracker. -/
theorem isBoundary_of_not_ident {c : Option Char}
    (h : ∀ d, c = some d → isJsIdentChar d = false) : isBoundary c = true := by
  cases c with
  | none => rfl
  | some d =>
      have hd := h d rfl
      unfold isJsIdentChar at hd
      rw [Bool.or_eq_false_iff] at hd
      unfold isBoundary
      rw [Option.any_some, hd.1]
      rfl

/-- An identifier that is mentioned is found. -/
theorem identFrom_of_mentions {name before behind : List Char} {previous : Option Char}
    (hbefore : ∀ c, (before.getLast?.or previous) = some c → isJsIdentChar c = false)
    (hbehind : ∀ c, behind.head? = some c → isJsIdentChar c = false) (hname : name ≠ []) :
    identFrom name previous (before ++ name ++ behind) = true := by
  induction before generalizing previous with
  | nil =>
      rw [List.nil_append]
      cases name with
      | nil => exact absurd rfl hname
      | cons c rest =>
          have hleft : isBoundary previous = true := isBoundary_of_not_ident fun d hd =>
            hbefore d (by rw [List.getLast?_nil, Option.none_or, hd])
          have hright : isBoundary behind.head? = true := isBoundary_of_not_ident hbehind
          have hpre : (c :: rest).isPrefixOf (c :: (rest ++ behind)) = true :=
            List.isPrefixOf_iff_prefix.mpr ⟨behind, rfl⟩
          have hdrop : (c :: (rest ++ behind)).drop (c :: rest).length = behind :=
            @List.drop_left _ (c :: rest) behind
          rw [List.cons_append, identFrom, hleft, hpre, hdrop, hright]
          rfl
  | cons c before ih =>
      rw [List.cons_append, List.cons_append, identFrom, ih, Bool.or_true]
      intro d hd
      apply hbefore d
      rw [← hd]
      cases hlast : before.getLast? with
      | none =>
          obtain rfl := List.getLast?_eq_none_iff.mp hlast
          rfl
      | some e =>
          rw [List.getLast?_cons, hlast]
          rfl

/-- Spaces behind an expression hide no identifier. -/
theorem isIdentInExpr_of_mentions {name expr trail : List Char} (h : Mentions name expr)
    (htrail : ∀ c ∈ trail, isJsSpace c = true) (hname : name ≠ []) :
    isIdentInExpr (expr ++ trail) name = true := by
  obtain ⟨before, behind, rfl, hbefore, hbehind⟩ := h
  unfold isIdentInExpr
  rw [List.append_assoc]
  refine identFrom_of_mentions (by rw [Option.or_none]; exact hbefore) ?_ hname
  intro c hc
  cases behind with
  | cons d rest => exact hbehind c hc
  | nil =>
      rw [List.nil_append] at hc
      have hspace := htrail c (List.mem_of_mem_head? hc)
      cases hident : isJsIdentChar c with
      | false => rfl
      | true =>
          rw [isJsSpace_of_ident hident] at hspace
          cases hspace

/-- A tainted expression is seen. -/
theorem taintOf_isSome {expr trail : List Char} {tainted : TaintMap}
    (htrail : ∀ c ∈ trail, isJsSpace c = true)
    (h : MentionsSource expr ∨ ∃ name ∈ tainted.keys, name ≠ [] ∧ Mentions name expr) :
    ∃ info, taintOf (expr ++ trail) tainted .javascript = some info := by
  unfold taintOf
  cases hfind : (requestSources .javascript).find? fun kind => occursIn kind.toList (expr ++ trail) with
  | some kind => exact ⟨_, rfl⟩
  | none =>
      rcases h with ⟨kind, hkind, before, behind, rfl⟩ | ⟨name, hname, hne, hmentions⟩
      · have hnone := List.find?_eq_none.mp hfind kind hkind
        refine absurd (occursIn_iff.mpr ⟨before, behind ++ trail, ?_⟩) hnone
        rw [List.append_assoc _ behind]
      · obtain ⟨⟨name', info⟩, hentry, rfl⟩ := List.mem_map.mp hname
        have hsome : (tainted.find? fun e => isIdentInExpr (expr ++ trail) e.1).isSome = true := by
          rw [List.find?_isSome]
          exact ⟨_, hentry, isIdentInExpr_of_mentions hmentions htrail hne⟩
        obtain ⟨found, hfound⟩ := Option.isSome_iff_exists.mp hsome
        refine ⟨found.2, ?_⟩
        dsimp only
        rw [if_neg (by rintro ⟨hlanguage, -⟩; cases hlanguage), hfound]
        rfl

/-! ## One line -/

theorem TaintLine.ne_nil_of_mem_binds {line : TaintLine} {id : List Char}
    (hid : id ∈ line.binds) : id ≠ [] := by
  cases line with
  | assign lead keyword name before behind expr trail =>
      obtain rfl := List.mem_singleton.mp hid
      exact name.chars_ne_nil
  | destructure lead keyword gap properties before behind expr trail =>
      obtain ⟨p, -, rfl⟩ := List.mem_map.mp hid
      unfold PatternProperty.bound
      split
      · exact p.key.chars_ne_nil
      · exact JsIdent.chars_ne_nil _

theorem Tainted.ne_nil {lines : List TaintLine} {id : List Char} (h : Tainted lines id) :
    id ≠ [] := by
  cases h with
  | source hsource hid => exact TaintLine.ne_nil_of_mem_binds hid
  | passed hname hmentions hid => exact TaintLine.ne_nil_of_mem_binds hid

/-- The map after a line. -/
theorem mem_keys_collectLine (tainted : TaintMap) (line : List Char) (lineNo : Nat)
    (id : List Char) :
    id ∈ (collectLine .javascript tainted line lineNo).keys ↔
      id ∈ tainted.keys ∨ ∃ found, bindings? .javascript line = some found ∧
        (∃ info, taintOf found.2 tainted .javascript = some info) ∧ id ∈ found.1 := by
  unfold collectLine
  cases hbindings : bindings? .javascript line with
  | none => simp
  | some found =>
      obtain ⟨names, expr⟩ := found
      dsimp only
      cases htaint : taintOf expr tainted .javascript with
      | none => simp [htaint]
      | some source =>
          dsimp only
          rw [AssocMap.mem_keys_foldl_upsert (fun name => name)]
          simp [htaint]

/-- A line that is read passes the taint of its expression on. -/
theorem collectLine_of_reads {tainted : TaintMap} {line : TaintLine} (hreads : line.Reads)
    (h : MentionsSource line.expr ∨ ∃ name ∈ tainted.keys, name ≠ [] ∧ Mentions name line.expr)
    {id : List Char} (hid : id ∈ line.binds) (lineNo : Nat) :
    id ∈ (collectLine .javascript tainted line.text lineNo).keys := by
  obtain ⟨names, trail, hbindings, htrail, hall⟩ :=
    line.bindings?_of_reads hreads (List.ne_nil_of_mem hid)
  rw [mem_keys_collectLine]
  exact Or.inr ⟨_, hbindings, taintOf_isSome htrail h, hall id hid⟩

/-! ## All lines -/

theorem collectFrom_concat (language : SastLanguage) (lines : List (List Char)) (line : List Char)
    (lineNo : Nat) (tainted : TaintMap) :
    collectFrom language lineNo tainted (lines ++ [line]) =
      collectLine language (collectFrom language lineNo tainted lines) line
        (lineNo + lines.length) := by
  induction lines generalizing lineNo tainted with
  | nil => rfl
  | cons first rest ih =>
      rw [List.cons_append, collectFrom, ih, collectFrom, List.length_cons]
      congr 1
      omega

theorem not_tainted_nil {id : List Char} : ¬Tainted [] id := by
  intro h
  generalize hlines : ([] : List TaintLine) = lines at h
  cases h with
  | source hsource hid => exact absurd hlines.symm (by simp)
  | passed hname hmentions hid => exact absurd hlines.symm (by simp)

/-- When the tainted lines are read, every tainted identifier is a key. -/
theorem mem_collectFrom_of_tainted {lines : List TaintLine}
    (hreads : ∀ above line below, lines = above ++ line :: below →
      TaintedLine above line → line.Reads)
    {id : List Char} (h : Tainted lines id) :
    id ∈ (collectFrom .javascript 1 [] (lines.map TaintLine.text)).keys := by
  induction lines using List.reverseRecOn generalizing id with
  | nil => exact absurd h not_tainted_nil
  | append_singleton lines line ih =>
      have habove : ∀ {name}, Tainted lines name →
          name ∈ (collectFrom .javascript 1 [] (lines.map TaintLine.text)).keys := by
        intro name hname
        refine ih (fun above line' below heq => ?_) hname
        exact hreads above line' (below ++ [line]) (by rw [heq]; simp)
      rw [List.map_append, List.map_singleton, collectFrom_concat]
      rcases h.concat_cases with hold | ⟨htainted, hid⟩
      · rw [mem_keys_collectLine]
        exact Or.inl (habove hold)
      · refine collectLine_of_reads (hreads lines line [] rfl htainted) ?_ hid _
        refine htainted.imp_right ?_
        rintro ⟨name, hname, hmentions⟩
        exact ⟨name, habove hname, hname.ne_nil, hmentions⟩

/-- The map of a file is that of its lines without comments. -/
theorem taintedMap_fileText {lines lines' : List TaintLine} (hne : lines' ≠ [])
    (h : Stripped lines lines') :
    taintedMap (fileText lines) .javascript =
      collectFrom .javascript 1 [] (lines'.map TaintLine.text) := by
  unfold taintedMap collectAssignments
  rw [h.1]
  unfold fileText
  rw [splitOn_intercalate (by simpa using hne)]
  intro part hpart
  obtain ⟨line, -, rfl⟩ := List.mem_map.mp hpart
  exact line.newline_notMem_text

theorem complete_of_reads {lines lines' : List TaintLine} (h : Stripped lines lines')
    (hreads : ∀ above line below, lines' = above ++ line :: below →
      TaintedLine above line → line.Reads) : Complete lines := by
  intro id hid
  have hid' := hid.keeps h.2
  have hne : lines' ≠ [] := by
    rintro rfl
    exact not_tainted_nil hid'
  rw [taintedMap_fileText hne h]
  exact mem_collectFrom_of_tainted hreads hid'

/-- A file has all its tainted identifiers in the map when the stripper blanks no binding and no
mention and every line that binds from a tainted expression is read; for a plain line on its own
that is also necessary. -/
theorem tainted_complete (lines lines' : List TaintLine) (line line' : TaintLine) :
    (Stripped lines lines' →
      (∀ above line below, lines' = above ++ line :: below →
        TaintedLine above line → line.Reads) → Complete lines) ∧
      (Stripped [line] [line'] → line'.Plain → MentionsSource line.expr →
        (Complete [line] ↔ line'.Reads)) := by
  refine ⟨fun h hreads => complete_of_reads h hreads, ?_⟩
  intro hstripped hplain hsource
  obtain ⟨hkeeps, -⟩ := List.forall₂_cons.mp hstripped.2
  constructor
  · intro hcomplete
    refine TaintLine.reads_of_bindings? hplain fun id hid => ?_
    have hmem := hcomplete id (@Tainted.source [] line [] id hsource (hkeeps.binds ▸ hid))
    rw [taintedMap_fileText (List.cons_ne_nil line' []) hstripped] at hmem
    rcases (mem_keys_collectLine [] line'.text 1 id).mp hmem with hnil | ⟨found, hfound, -, hmem⟩
    · cases hnil
    · exact ⟨found, hfound, hmem⟩
  · intro hreads
    refine complete_of_reads hstripped fun above other below heq _ => ?_
    cases above with
    | nil => exact (List.cons.inj heq).1 ▸ hreads
    | cons first above => exact absurd (List.cons.inj heq).2 (by simp)

def noBlank : Blank := ⟨[], by simp, by simp⟩

def oneBlank : Blank := ⟨[' '], List.all_eq_true.mp rfl, by simp⟩

/-- `const { id: userId } = req.query`. -/
def renamedLine : TaintLine :=
  .destructure noBlank .const oneBlank
    [{  lead := oneBlank
        key := ⟨['i', 'd'], List.all_eq_true.mp rfl, 'i', ['d'], rfl, rfl⟩
        rename := some (noBlank, oneBlank,
          ⟨"userId".toList, List.all_eq_true.mp rfl, 'u', "serId".toList, rfl, rfl⟩)
        default := none
        trail := oneBlank
        oneLine := by rintro d ⟨⟩ }]
    oneBlank oneBlank
    { chars := "req.query".toList
      given := List.cons_ne_nil _ _
      noTerminator := fun c hc => Bool.eq_false_of_not_eq_true
        (List.any_eq_false.mp (rfl : "req.query".toList.any isLineTerminator = false) c hc)
      firstInk := by rintro c ⟨⟩; rfl
      lastInk := by rintro c ⟨⟩; rfl }
    noBlank

/-- A renamed property taints its key and not the identifier it binds. -/
theorem tainted_renamed :
    fileText [renamedLine] = "const { id: userId } = req.query".toList ∧
      Tainted [renamedLine] "userId".toList ∧
      (taintedMap (fileText [renamedLine]) .javascript).keys = ["id".toList] ∧
      ¬Complete [renamedLine] := by
  have htext : fileText [renamedLine] = "const { id: userId } = req.query".toList := rfl
  have htainted : Tainted [renamedLine] "userId".toList := by
    refine @Tainted.source [] renamedLine [] _ ?_ List.mem_cons_self
    exact ⟨"req.query", by decide, [], [], rfl⟩
  have hkeys : (taintedMap (fileText [renamedLine]) .javascript).keys = ["id".toList] := by
    rw [htext]
    decide +kernel
  refine ⟨htext, htainted, hkeys, ?_⟩
  intro hcomplete
  have hmem := hcomplete _ htainted
  rw [hkeys] at hmem
  exact absurd hmem (by decide)

end Scanner
end Ctem
