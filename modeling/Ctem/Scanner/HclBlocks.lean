import Ctem.Foundation.Brackets
import Ctem.Scanner.HclParser
import Ctem.Scanner.HclSpelling

/-!
# The blocks of a Terraform file

Which of the resource blocks of a file the parser returns.

* A successful call of the parser takes a list of tokens whose braces match,
  `parseObject_takes`; so it ends where the block does, whatever stands in the block.
* The bodies of variables, outputs, locals and the terraform block are not parsed but
  scanned for words.  `LeavesHook` says that such a body has a word the scan takes for
  the beginning of a block to skip, and no brace behind it: the scan then goes on into
  the next block.
* `parseHclResources_exact_iff`: where the parser returns, it returns exactly the
  resources, unless such a block is followed by one of them.
-/

namespace Ctem
namespace Scanner

open Foundation

/-! ## The syntax of a file -/

/-- The kinds of block at the top level. -/
inductive BlockKind where
  | resource | module | data | provider | inputVariable | output | locals | terraform
deriving DecidableEq, Repr

def BlockKind.word : BlockKind → String
  | resource => "resource"
  | module => "module"
  | data => "data"
  | provider => "provider"
  | inputVariable => "variable"
  | output => "output"
  | locals => "locals"
  | terraform => "terraform"

/-- The kinds whose bodies are scanned for words. -/
def BlockKind.Scanned (k : BlockKind) : Prop :=
  k ∈ [inputVariable, output, locals, terraform]

def leftBrace : TokKind := .punct '\x7b'

def rightBrace : TokKind := .punct '\x7d'

/-- A block at the top level; of its body only the lexemes count. -/
structure HclBlock where
  kind : BlockKind
  labels : List String
  body : List Lexeme

namespace HclBlock

def lexemes (b : HclBlock) : List Lexeme :=
  .word b.kind.word :: (b.labels.map (fun label => .quoted label.toList) ++
    .mark '\x7b' :: (b.body ++ [.mark '\x7d']))

/-- Labels are written without escapes, and the braces of the body match. -/
structure WellFormed (b : HclBlock) : Prop where
  labels : ∀ label ∈ b.labels, '\\' ∉ label.toList
  body : BracketBalanced leftBrace rightBrace (b.body.map Lexeme.kind)

/-- Type and name of a resource. -/
def resource? (b : HclBlock) : Option (String × String) :=
  match b.kind, b.labels with
  | .resource, [type, name] => some (type, name)
  | _, _ => none

end HclBlock

/-- Inside a body: the head of a resource block with its two labels. -/
def NestsResource (body : List TokKind) : Prop :=
  ∃ type name, [.ident "resource", .str type, .str name, leftBrace] <:+: body

/-- A word for a block to skip has no brace behind it; what the scan has skipped up to the
end of the braces behind an earlier one is not looked at. -/
inductive LeavesHook : List TokKind → Prop
  | hangs {word : String} {rest : List TokKind} (hword : word ∈ skippedKinds)
      (hrest : leftBrace ∉ rest) : LeavesHook (.ident word :: rest)
  | jumps {word : String} {between inner after : List TokKind} (hword : word ∈ skippedKinds)
      (hbetween : leftBrace ∉ between)
      (hinner : closeBracket leftBrace rightBrace 0 inner = some after) (h : LeavesHook after) :
      LeavesHook (.ident word :: (between ++ leftBrace :: inner))
  | other {k : TokKind} {rest : List TokKind} (hk : ∀ word ∈ skippedKinds, k ≠ .ident word)
      (h : LeavesHook rest) : LeavesHook (k :: rest)

/-- No resource stands behind a block that leaves a hook; the block that does is skipped. -/
def HooksClosed : List HclBlock → Prop
  | [] => True
  | [_] => True
  | b :: c :: rest =>
      (b.kind.Scanned ∧ LeavesHook (b.body.map Lexeme.kind) →
        c.resource? = none ∧ HooksClosed rest) ∧
      (¬ (b.kind.Scanned ∧ LeavesHook (b.body.map Lexeme.kind)) → HooksClosed (c :: rest))

/-! ## What a call takes -/

/-- The kinds of the tokens. -/
def kinds (toks : List Tok) : List TokKind := toks.map Tok.kind

section Takes

variable (d : Nat)

theorem closeBracket_takeLabels (toks : List Tok) :
    closeBracket leftBrace rightBrace d (kinds toks) =
      closeBracket leftBrace rightBrace d (kinds (takeLabels toks).2) := by
  fun_induction takeLabels toks with
  | case1 label line rest ih =>
      rw [← ih]
      exact closeBracket_other d (by simp [leftBrace]) (by simp [rightBrace]) _
  | case2 => rfl

theorem stepMark_eq_some {k : TokKind} {mark : String} (h : k.stepMark = some mark) :
    k = .punct '.' ∧ mark = "." ∨ k = .punct '[' ∧ mark = "[" := by
  unfold TokKind.stepMark at h
  split at h
  · exact Or.inl ⟨rfl, (Option.some.inj h).symm⟩
  · exact Or.inr ⟨rfl, (Option.some.inj h).symm⟩
  · cases h

/-- A step of a reference and what stands behind its mark are no braces. -/
theorem closeBracket_readSteps (toks : List Tok) (text : String) :
    closeBracket leftBrace rightBrace d (kinds toks) =
      closeBracket leftBrace rightBrace d (kinds (readSteps toks text).2) := by
  have hmark : ∀ (tok : Tok) (mark : String) (rest : List Tok), tok.kind.stepMark = some mark →
      closeBracket leftBrace rightBrace d (kinds (tok :: rest)) =
        closeBracket leftBrace rightBrace d (kinds rest) := by
    intro tok mark rest hmark
    apply closeBracket_other
    · obtain ⟨hkind, _⟩ | ⟨hkind, _⟩ := stepMark_eq_some hmark <;> simp [hkind, leftBrace]
    · obtain ⟨hkind, _⟩ | ⟨hkind, _⟩ := stepMark_eq_some hmark <;> simp [hkind, rightBrace]
  fun_induction readSteps toks text with
  | case1 => rfl
  | case2 => rfl
  | case3 tok text mark hstep => exact hmark tok mark [] hstep
  | case4 => rfl
  | case5 tok part rest text mark hstep value hpart ih =>
      rw [← ih, hmark tok mark _ hstep]
      apply closeBracket_other
      · rintro heq
        rw [heq] at hpart
        cases hpart
      · rintro heq
        rw [heq] at hpart
        cases hpart
  | case6 tok part rest text mark hstep hpart hclose ih =>
      rw [← ih, hmark tok mark _ hstep]
      apply closeBracket_other <;> simp [hclose.2, leftBrace, rightBrace]
  | case7 tok part rest text mark hstep hpart hclose ih => rw [← ih, hmark tok mark _ hstep]

end Takes

/-- A block takes the tokens up to its closing brace; a value and a list take tokens whose
braces match. -/
theorem parse_braces (turns : Nat) :
    (∀ toks obj r, parseObject turns toks obj = .ok r → ∀ d,
      closeBracket leftBrace rightBrace d (kinds toks) =
        leaveBracket leftBrace rightBrace d (kinds r.2)) ∧
    (∀ toks r, parseValue turns toks = .ok r → ∀ d,
      closeBracket leftBrace rightBrace d (kinds toks) =
        closeBracket leftBrace rightBrace d (kinds r.2)) ∧
    ∀ toks items r, parseList turns toks items = .ok r → ∀ d,
      closeBracket leftBrace rightBrace d (kinds toks) =
        closeBracket leftBrace rightBrace d (kinds r.2) := by
  have hskip : ∀ (d : Nat) (tok : Tok) (rest : List Tok) {k : TokKind}, tok.kind = k →
      k ≠ leftBrace → k ≠ rightBrace →
      closeBracket leftBrace rightBrace d (kinds (tok :: rest)) =
        closeBracket leftBrace rightBrace d (kinds rest) := by
    intro d tok rest k hk hleft hright
    exact closeBracket_other d (hk ▸ hleft) (hk ▸ hright) _
  have hopen : ∀ (d : Nat) (tok : Tok) (rest : List Tok), tok.kind = leftBrace →
      closeBracket leftBrace rightBrace d (kinds (tok :: rest)) =
        closeBracket leftBrace rightBrace (d + 1) (kinds rest) := by
    intro d tok rest hk
    have hkinds : kinds (tok :: rest) = leftBrace :: kinds rest := by
      rw [kinds, List.map_cons, hk]
      rfl
    rw [hkinds, closeBracket_left]
  apply @parse_takes
    (fun toks after => ∀ d, closeBracket leftBrace rightBrace d (kinds toks) =
      leaveBracket leftBrace rightBrace d (kinds after))
    (fun toks after => ∀ d, closeBracket leftBrace rightBrace d (kinds toks) =
      closeBracket leftBrace rightBrace d (kinds after))
    (fun toks after => ∀ d, closeBracket leftBrace rightBrace d (kinds toks) =
      closeBracket leftBrace rightBrace d (kinds after))
  case hclose =>
    intro tok rest hkind d
    have hkinds : kinds (tok :: rest) = rightBrace :: kinds rest := by
      rw [kinds, List.map_cons, hkind]
      rfl
    rw [hkinds, closeBracket_right (by simp [leftBrace, rightBrace])]
  case hattr =>
    intro tok key eq rest mid after hkey heq hvalue hmid d
    rw [hskip d tok _ hkey (by simp [leftBrace]) (by simp [rightBrace]),
      hskip d eq _ heq (by simp [leftBrace]) (by simp [rightBrace]), hvalue d, hmid d]
  case hblock =>
    intro tok key rest brace body mid after hkey hlabels hbrace hbody hmid d
    rw [hskip d tok _ hkey (by simp [leftBrace]) (by simp [rightBrace]),
      closeBracket_takeLabels, hlabels, hopen d brace body hbrace, hbody (d + 1)]
    exact hmid d
  case hstr =>
    intro tok value rest hkind d
    exact hskip d tok rest hkind (by simp [leftBrace]) (by simp [rightBrace])
  case hnumber =>
    intro tok value rest hkind d
    exact hskip d tok rest hkind (by simp [leftBrace]) (by simp [rightBrace])
  case hident =>
    intro tok name rest hkind d
    rw [hskip d tok rest hkind (by simp [leftBrace]) (by simp [rightBrace])]
    unfold identValue
    split
    · rfl
    split
    · rfl
    split
    · rfl
    · exact closeBracket_readSteps d rest name
  case hlist =>
    intro tok rest after hkind hlist d
    rw [hskip d tok rest hkind (by simp [leftBrace]) (by simp [rightBrace]), hlist d]
  case hobj =>
    intro tok rest after hkind hobj d
    rw [hopen d tok rest hkind, hobj (d + 1)]
    rfl
  case hend =>
    intro tok rest hkind d
    exact hskip d tok rest hkind (by simp [leftBrace]) (by simp [rightBrace])
  case hcomma =>
    intro tok rest after hkind hlist d
    rw [hskip d tok rest hkind (by simp [leftBrace]) (by simp [rightBrace]), hlist d]
  case hitem =>
    intro tok rest mid after _ _ hvalue hlist d
    rw [hvalue d, hlist d]

/-- A block whose body is balanced is left behind its closing brace. -/
theorem parseObject_takes {turns : Nat} {toks : List Tok} {obj : HclRecord}
    {r : HclRecord × List Tok} {body rest : List TokKind}
    (h : parseObject turns toks obj = .ok r) (hbody : BracketBalanced leftBrace rightBrace body)
    (hkinds : kinds toks = body ++ rightBrace :: rest) : kinds r.2 = rest := by
  have htakes := (parse_braces turns).1 toks obj r h 0
  rw [hkinds, hbody.closeBracket_append,
    closeBracket_right (by simp [leftBrace, rightBrace])] at htakes
  exact (Option.some.inj htakes).symm

/-! ## The loop over the top level -/

/-- What a turn of a successful run does: it reads a resource, skips a block, or skips a
token. -/
theorem scanTopLevel_cons {turns : Nat} {tok : Tok} {rest : List Tok}
    {resources found : List HclResource}
    (h : scanTopLevel turns (tok :: rest) resources = .ok found) :
    (tok.kind = .ident "resource" ∧ ∃ type name body parsed turns',
      resourceHeader? rest = some (type, name, body) ∧
      parseObject (turnsFor body) body [] = .ok parsed ∧
      scanTopLevel turns' parsed.2 (resources ++
        [⟨type, name, type ++ "." ++ name, parsed.1, tok.line⟩]) = .ok found) ∨
    (∃ word ∈ skippedKinds, tok.kind = .ident word ∧ ∃ body parsed turns',
      findBrace rest = some body ∧ parseObject (turnsFor body) body [] = .ok parsed ∧
      scanTopLevel turns' parsed.2 resources = .ok found) ∨
    (tok.kind ≠ .ident "resource" ∧ (∀ word ∈ skippedKinds, tok.kind ≠ .ident word) ∧
      ∃ turns', scanTopLevel turns' rest resources = .ok found) := by
  cases turns with
  | zero => cases h
  | succ turns =>
      rw [scanTopLevel] at h
      split at h
      · rename_i word hkind
        split at h
        · rename_i hresource
          split at h
          · cases h
          · rename_i type name body hheader
            obtain ⟨parsed, hparsed, hscan⟩ := bind_eq_ok.mp h
            exact Or.inl ⟨hresource ▸ hkind, type, name, body, parsed, turns, hheader, hparsed,
              hscan⟩
        · rename_i hresource
          split at h
          · rename_i hskipped
            split at h
            · cases h
            · rename_i body hbrace
              obtain ⟨parsed, hparsed, hscan⟩ := bind_eq_ok.mp h
              exact Or.inr (Or.inl ⟨word, hskipped, hkind, body, parsed, turns, hbrace, hparsed,
                hscan⟩)
          · rename_i hskipped
            refine Or.inr (Or.inr ⟨?_, ?_, turns, h⟩)
            · rw [hkind]
              exact fun heq => hresource (TokKind.ident.inj heq)
            · rw [hkind]
              exact fun other hother heq => hskipped (TokKind.ident.inj heq ▸ hother)
      · rename_i hkind
        exact Or.inr (Or.inr ⟨hkind "resource", fun word _ => hkind word, turns, h⟩)

/-- The first brace of a list of tokens is where their kinds have it. -/
theorem findBrace_spec {toks : List Tok} {front inner : List TokKind}
    (hkinds : kinds toks = front ++ leftBrace :: inner) (hfront : leftBrace ∉ front) :
    ∃ body, findBrace toks = some body ∧ kinds body = inner := by
  induction front generalizing toks with
  | nil =>
      obtain ⟨tok, rest, rfl, hkind, hrest⟩ := List.map_eq_cons_iff.mp hkinds
      refine ⟨rest, ?_, hrest⟩
      unfold findBrace
      exact if_pos hkind
  | cons k front ih =>
      obtain ⟨tok, rest, rfl, hkind, hrest⟩ := List.map_eq_cons_iff.mp hkinds
      rw [List.mem_cons, not_or] at hfront
      obtain ⟨body, hbody, hinner⟩ := ih hrest hfront.2
      refine ⟨body, ?_, hinner⟩
      unfold findBrace
      rw [if_neg (hkind ▸ Ne.symm hfront.1)]
      exact hbody

/-- Up to the first brace, and behind it. -/
theorem exists_split_of_mem {ks : List TokKind} (h : leftBrace ∈ ks) :
    ∃ front inner, ks = front ++ leftBrace :: inner ∧ leftBrace ∉ front := by
  induction ks with
  | nil => cases h
  | cons k rest ih =>
      by_cases hk : k = leftBrace
      · exact ⟨[], rest, by rw [hk]; rfl, List.not_mem_nil⟩
      · have hmem : leftBrace ∈ rest := by
          rcases List.mem_cons.mp h with heq | hmem
          · exact absurd heq.symm hk
          · exact hmem
        obtain ⟨front, inner, rfl, hfront⟩ := ih hmem
        refine ⟨k :: front, inner, rfl, ?_⟩
        rw [List.mem_cons, not_or]
        exact ⟨Ne.symm hk, hfront⟩

/-- Behind a word with a brace, a hook is left when one is left behind the braces. -/
theorem leavesHook_jumps {word : String} {front inner after : List TokKind}
    (hword : word ∈ skippedKinds) (hfront : leftBrace ∉ front)
    (hinner : closeBracket leftBrace rightBrace 0 inner = some after) :
    LeavesHook (.ident word :: (front ++ leftBrace :: inner)) ↔ LeavesHook after := by
  constructor
  · intro h
    generalize hks : TokKind.ident word :: (front ++ leftBrace :: inner) = ks at h
    cases h with
    | hangs hother hrest =>
        obtain ⟨_, rfl⟩ := List.cons.inj hks
        exact absurd (List.mem_append_right front List.mem_cons_self) hrest
    | @jumps word' between inner' after' hother hbetween hinner' hafter =>
        obtain ⟨_, hsplit⟩ := List.cons.inj hks
        obtain ⟨rfl, rfl⟩ : front = between ∧ inner = inner' := by
          have hfirst : ∀ {u v x y : List TokKind}, u ++ leftBrace :: x = v ++ leftBrace :: y →
              leftBrace ∉ u → leftBrace ∉ v → u = v ∧ x = y := by
            intro u
            induction u with
            | nil =>
                intro v x y heq _ hv
                cases v with
                | nil => exact ⟨rfl, (List.cons.inj heq).2⟩
                | cons k v =>
                    exact absurd (List.mem_cons.mpr (Or.inl (List.cons.inj heq).1)) hv
            | cons k u ih =>
                intro v x y heq hu hv
                cases v with
                | nil => exact absurd (List.mem_cons.mpr (Or.inl (List.cons.inj heq).1.symm)) hu
                | cons k' v =>
                    obtain ⟨rfl, htail⟩ := List.cons.inj heq
                    obtain ⟨rfl, rfl⟩ := ih htail (fun h => hu (List.mem_cons_of_mem _ h))
                      (fun h => hv (List.mem_cons_of_mem _ h))
                    exact ⟨rfl, rfl⟩
          exact hfirst hsplit hfront hbetween
        rw [hinner] at hinner'
        exact Option.some.inj hinner' ▸ hafter
    | other hk _ =>
        obtain ⟨rfl, _⟩ := List.cons.inj hks
        exact absurd rfl (hk word hword)
  · exact .jumps hword hfront hinner

theorem not_nestsResource_suffix {s t : List TokKind} (h : ¬ NestsResource s) (ht : t <:+ s) :
    ¬ NestsResource t := by
  rintro ⟨type, name, hinfix⟩
  exact h ⟨type, name, hinfix.trans ht.isInfix⟩

/-- Three tokens in front of a closing brace that are none themselves stand before it. -/
theorem prefix_of_append_rightBrace {a b c : TokKind} {tail s more : List TokKind}
    (h : a :: b :: c :: tail = s ++ rightBrace :: more) (ha : a ≠ rightBrace)
    (hb : b ≠ rightBrace) (hc : c ≠ rightBrace) : ∃ tail', s = a :: b :: c :: tail' := by
  cases s with
  | nil => exact absurd (List.cons.inj h).1 ha
  | cons x s =>
      obtain ⟨rfl, htail⟩ := List.cons.inj h
      cases s with
      | nil => exact absurd (List.cons.inj htail).1 hb
      | cons y s =>
          obtain ⟨rfl, htail'⟩ := List.cons.inj htail
          cases s with
          | nil => exact absurd (List.cons.inj htail').1 hc
          | cons z s =>
              obtain ⟨rfl, _⟩ := List.cons.inj htail'
              exact ⟨s, rfl⟩

/-- The scan of a body that nests no resource.  It arrives at the closing brace, or it
leaves a hook and goes on behind the first brace it finds. -/
theorem scan_body {more : List TokKind} (n : Nat) :
    ∀ (s : List TokKind), s.length ≤ n →
    (∀ t, t <:+ s → bracketDepth leftBrace rightBrace t ≤ 0) → ¬ NestsResource s →
    ∀ {turns : Nat} {toks : List Tok} {resources found : List HclResource},
    kinds toks = s ++ rightBrace :: more → scanTopLevel turns toks resources = .ok found →
    (¬ LeavesHook s ∧ ∃ turns' toks', kinds toks' = rightBrace :: more ∧
      scanTopLevel turns' toks' resources = .ok found) ∨
    (LeavesHook s ∧ ∃ turns' front toks' body parsed, leftBrace ∉ front ∧
      kinds toks' = front ++ rightBrace :: more ∧ findBrace toks' = some body ∧
      parseObject (turnsFor body) body [] = .ok parsed ∧
      scanTopLevel turns' parsed.2 resources = .ok found) := by
  induction n with
  | zero =>
      intro s hlength _ _ turns toks resources found hkinds hscan
      obtain rfl := List.length_eq_zero_iff.mp (Nat.le_zero.mp hlength)
      exact Or.inl ⟨fun h => (nomatch h), turns, toks, hkinds, hscan⟩
  | succ n ih =>
      intro s hlength hdepth hnests turns toks resources found hkinds hscan
      cases s with
      | nil => exact Or.inl ⟨fun h => (nomatch h), turns, toks, hkinds, hscan⟩
      | cons k s =>
          rw [List.length_cons] at hlength
          rw [List.cons_append] at hkinds
          obtain ⟨tok, rest, rfl, hkind, hrest⟩ := List.map_eq_cons_iff.mp hkinds
          have hsuffix : s <:+ k :: s := List.suffix_cons k s
          obtain ⟨hresource, type, name, body, parsed, turns', hheader, _⟩ |
            ⟨word, hword, hwordkind, body, parsed, turns', hbrace, hparsed, hgo⟩ |
            ⟨hresource, hnone, turns', hgo⟩ := scanTopLevel_cons hscan
          · -- A head with two labels would be a resource nested in the body.
            obtain ⟨l₁, l₂, l₃, rfl⟩ := resourceHeader?_eq_some hheader
            refine absurd ⟨type, name, ?_⟩ hnests
            rw [hkind] at hresource
            have hthree : TokKind.str type :: .str name :: leftBrace :: kinds body =
                s ++ rightBrace :: more := hrest
            obtain ⟨tail, rfl⟩ := prefix_of_append_rightBrace hthree (by simp [rightBrace])
              (by simp [rightBrace]) (by simp [leftBrace, rightBrace])
            rw [hresource]
            exact ⟨[], tail, rfl⟩
          · rw [hkind] at hwordkind
            subst hwordkind
            by_cases hmem : leftBrace ∈ s
            · obtain ⟨front, inner, rfl, hfront⟩ := exists_split_of_mem hmem
              rw [List.append_assoc, List.cons_append] at hrest
              obtain ⟨body', hbody', hinner⟩ := findBrace_spec hrest hfront
              obtain rfl := Option.some.inj (hbrace.symm.trans hbody')
              have hopen := hdepth (leftBrace :: inner)
                ((List.suffix_append front _).trans hsuffix)
              rw [bracketDepth_left] at hopen
              obtain ⟨after, hafter, hclose⟩ := @closeBracket_of_depth_le _ _ leftBrace rightBrace
                inner 0 (by omega)
              have hafterKinds : kinds parsed.2 = after ++ rightBrace :: more := by
                have htakes := (parse_braces _).1 body [] parsed hparsed 0
                rw [hinner, hclose] at htakes
                exact (Option.some.inj htakes).symm
              have hown : closeBracket leftBrace rightBrace 0 inner = some after := by
                have hnil := hclose []
                rwa [List.append_nil, List.append_nil] at hnil
              have hafterSuffix : after <:+ .ident word :: (front ++ leftBrace :: inner) :=
                (hafter.trans (List.suffix_cons _ _)).trans
                  ((List.suffix_append front _).trans hsuffix)
              rw [leavesHook_jumps hword hfront hown]
              refine ih after ?_ (fun t ht => hdepth t (ht.trans hafterSuffix))
                (not_nestsResource_suffix hnests hafterSuffix) hafterKinds hgo
              have hle := hafter.length_le
              simp only [List.length_append, List.length_cons] at hlength
              omega
            · exact Or.inr ⟨.hangs hword hmem, turns', s, rest, body, parsed, hmem, hrest, hbrace,
                hparsed, hgo⟩
          · have hother : ∀ word ∈ skippedKinds, k ≠ .ident word := hkind ▸ hnone
            have hiff : LeavesHook (k :: s) ↔ LeavesHook s := by
              constructor
              · intro h
                generalize hks : k :: s = ks at h
                cases h with
                | hangs hword _ => exact absurd (List.cons.inj hks).1 (hother _ hword)
                | jumps hword _ _ _ => exact absurd (List.cons.inj hks).1 (hother _ hword)
                | other _ h => exact (List.cons.inj hks).2 ▸ h
              · exact .other hother
            rw [hiff]
            exact ih s (by omega) (fun t ht => hdepth t (ht.trans hsuffix))
              (not_nestsResource_suffix hnests hsuffix) hrest hgo

/-! ## The blocks of a file -/

theorem dropBackslashes_of_not_mem {cs : List Char} (h : '\\' ∉ cs) : dropBackslashes cs = cs := by
  fun_induction dropBackslashes cs with
  | case1 => rfl
  | case2 => rfl
  | case3 => exact absurd List.mem_cons_self h
  | case4 c d rest _ ih => rw [ih fun hmem => h (List.mem_cons_of_mem c hmem)]

/-- The tokens of a block. -/
def HclBlock.tokens (b : HclBlock) : List TokKind :=
  .ident b.kind.word :: (b.labels.map TokKind.str ++
    leftBrace :: (b.body.map Lexeme.kind ++ [rightBrace]))

theorem HclBlock.WellFormed.map_kind {b : HclBlock} (h : b.WellFormed) :
    b.lexemes.map Lexeme.kind = b.tokens := by
  have hlabels : (b.labels.map fun label => Lexeme.quoted label.toList).map Lexeme.kind =
      b.labels.map TokKind.str := by
    rw [List.map_map]
    apply List.map_congr_left
    intro label hlabel
    simp only [Function.comp_apply, Lexeme.kind]
    rw [dropBackslashes_of_not_mem (h.labels label hlabel), String.ofList_toList]
  simp only [HclBlock.lexemes, HclBlock.tokens, List.map_cons, List.map_append, hlabels,
    List.map_nil]
  rfl

theorem leftBrace_not_mem_labels (labels : List String) :
    leftBrace ∉ labels.map TokKind.str := by
  simp [leftBrace]

/-- A head with two labels is that of the block. -/
theorem labels_of_header {labels : List String} {type name : String}
    {inner behind : List TokKind}
    (h : labels.map TokKind.str ++ leftBrace :: inner =
      .str type :: .str name :: leftBrace :: behind) : labels = [type, name] ∧ inner = behind := by
  match labels, h with
  | [], h => simp [leftBrace] at h
  | [_], h => simp [leftBrace] at h
  | [_, _], h =>
      simp only [List.map_cons, List.map_nil, List.cons_append, List.nil_append, List.cons.injEq,
        TokKind.str.injEq, true_and] at h
      obtain ⟨rfl, rfl, rfl⟩ := h
      exact ⟨rfl, rfl⟩
  | _ :: _ :: _ :: _, h => simp [leftBrace] at h

theorem hooksClosed_cons {b : HclBlock} {rest : List HclBlock}
    (h : ¬ (b.kind.Scanned ∧ LeavesHook (b.body.map Lexeme.kind))) :
    HooksClosed (b :: rest) ↔ HooksClosed rest := by
  cases rest with
  | nil => exact Iff.rfl
  | cons c rest =>
      constructor
      · exact fun hclosed => hclosed.2 h
      · exact fun hclosed => ⟨fun hleaves => absurd hleaves h, fun _ => hclosed⟩

/-- Tokens that are no word the scan looks for are skipped. -/
theorem scan_skip {front tail : List TokKind} (hresource : .ident "resource" ∉ front)
    (hhooks : ∀ word ∈ skippedKinds, .ident word ∉ front) {turns : Nat} {toks : List Tok}
    {resources found : List HclResource} (hkinds : kinds toks = front ++ tail)
    (h : scanTopLevel turns toks resources = .ok found) :
    ∃ turns' toks', kinds toks' = tail ∧ scanTopLevel turns' toks' resources = .ok found := by
  induction front generalizing turns toks with
  | nil => exact ⟨turns, toks, hkinds, h⟩
  | cons k front ih =>
      obtain ⟨tok, rest, rfl, hkind, hrest⟩ := List.map_eq_cons_iff.mp hkinds
      rw [List.mem_cons, not_or] at hresource
      obtain ⟨heq, _⟩ | ⟨word, hword, heq, _⟩ | ⟨_, _, turns', hgo⟩ := scanTopLevel_cons h
      · exact absurd (heq.symm.trans hkind) hresource.1
      · exact absurd (List.mem_cons.mpr (Or.inl (heq.symm.trans hkind))) (hhooks word hword)
      · exact ih hresource.2
          (fun word hword hmem => hhooks word hword (List.mem_cons_of_mem k hmem)) hrest hgo

theorem findBrace_none {toks : List Tok} (h : leftBrace ∉ kinds toks) : findBrace toks = none := by
  induction toks with
  | nil => rfl
  | cons tok rest ih =>
      rw [kinds, List.map_cons, List.mem_cons, not_or] at h
      have hkind : tok.kind ≠ .punct '\x7b' := Ne.symm h.1
      unfold findBrace
      rw [if_neg hkind]
      exact ih h.2

/-- Type and name of a resource that was found. -/
def typeAndName (r : HclResource) : String × String := (r.type, r.name)

/-- The run over these blocks: what it adds to the resources are some of those of the file,
and all of them just if no resource is behind a hook. -/
def ScanAdds (blocks : List HclBlock) : Prop :=
  ∀ (turns : Nat) (toks : List Tok) (resources found : List HclResource),
    kinds toks = blocks.flatMap HclBlock.tokens → scanTopLevel turns toks resources = .ok found →
    ∃ added : List (String × String),
      found.map typeAndName = resources.map typeAndName ++ added ∧
      added.Sublist (blocks.filterMap HclBlock.resource?) ∧
      (added = blocks.filterMap HclBlock.resource? ↔ HooksClosed blocks)

theorem scanAdds_nil : ScanAdds [] := by
  intro turns toks resources found hkinds hscan
  obtain rfl := List.map_eq_nil_iff.mp hkinds
  obtain rfl : resources = found := by
    cases turns <;> exact Except.ok.inj hscan
  exact ⟨[], (List.append_nil _).symm, List.Sublist.slnil, iff_of_true rfl trivial⟩

section Blocks

variable {b : HclBlock} {blocks : List HclBlock} (hwf : b.WellFormed) (hmore : ScanAdds blocks)

omit hwf hmore in
/-- The tokens of the file behind the word of its first block. -/
theorem kinds_behind_word {toks : List Tok}
    (h : kinds toks = (b :: blocks).flatMap HclBlock.tokens) :
    ∃ tok rest, toks = tok :: rest ∧ tok.kind = .ident b.kind.word ∧
      kinds rest = b.labels.map TokKind.str ++ leftBrace :: (b.body.map Lexeme.kind ++
        rightBrace :: blocks.flatMap HclBlock.tokens) := by
  rw [List.flatMap_cons, HclBlock.tokens, List.cons_append, List.append_assoc, List.cons_append,
    List.append_assoc, List.singleton_append] at h
  obtain ⟨tok, rest, rfl, hkind, hrest⟩ := List.map_eq_cons_iff.mp h
  exact ⟨tok, rest, rfl, hkind, hrest⟩

include hwf hmore

/-- A resource is read, and the run goes on behind it. -/
theorem scanAdds_resource (hb : b.kind = .resource) : ScanAdds (b :: blocks) := by
  intro turns toks resources found hkinds hscan
  obtain ⟨tok, rest, rfl, hkind, hrest⟩ := kinds_behind_word hkinds
  rw [hb] at hkind
  obtain ⟨_, type, name, body, parsed, turns', hheader, hparsed, hgo⟩ |
    ⟨word, hword, heq, _⟩ | ⟨hresource, _⟩ := scanTopLevel_cons hscan
  · obtain ⟨l₁, l₂, l₃, rfl⟩ := resourceHeader?_eq_some hheader
    obtain ⟨hlabels, hinner⟩ := labels_of_header hrest.symm
    have hafter := parseObject_takes hparsed hwf.body hinner.symm
    obtain ⟨added, hfound, hsublist, hiff⟩ := hmore _ _ _ _ hafter hgo
    have hown : b.resource? = some (type, name) := by
      unfold HclBlock.resource?
      rw [hb, hlabels]
    have hclosed : HooksClosed (b :: blocks) ↔ HooksClosed blocks := by
      apply hooksClosed_cons
      rw [hb]
      simp [BlockKind.Scanned]
    refine ⟨(type, name) :: added, ?_, ?_, ?_⟩
    · rw [hfound, List.map_append, List.append_assoc]
      rfl
    · rw [List.filterMap_cons_some hown]
      exact hsublist.cons_cons _
    · rw [List.filterMap_cons_some hown, hclosed, ← hiff, List.cons_inj_right]
  · rw [← TokKind.ident.inj (hkind.symm.trans heq)] at hword
    simp [BlockKind.word, skippedKinds] at hword
  · exact absurd hkind hresource

/-- A module, a data source or a provider is skipped whole. -/
theorem scanAdds_skipped (hb : b.kind ∈ [BlockKind.module, .data, .provider]) :
    ScanAdds (b :: blocks) := by
  intro turns toks resources found hkinds hscan
  obtain ⟨tok, rest, rfl, hkind, hrest⟩ := kinds_behind_word hkinds
  have hword : b.kind.word ≠ "resource" ∧ b.kind.word ∈ skippedKinds := by
    simp only [List.mem_cons, List.not_mem_nil, or_false] at hb
    rcases hb with hb | hb | hb <;> rw [hb] <;> exact ⟨by decide, by decide⟩
  obtain ⟨heq, _⟩ | ⟨_, _, _, body, parsed, turns', hbrace, hparsed, hgo⟩ |
    ⟨_, hskipped, _⟩ := scanTopLevel_cons hscan
  · exact absurd (TokKind.ident.inj (hkind.symm.trans heq)) hword.1
  · obtain ⟨body', hbody', hinner⟩ := findBrace_spec hrest (leftBrace_not_mem_labels b.labels)
    obtain rfl := Option.some.inj (hbrace.symm.trans hbody')
    have hafter := parseObject_takes hparsed hwf.body hinner
    obtain ⟨added, hfound, hsublist, hiff⟩ := hmore _ _ _ _ hafter hgo
    have hown : b.resource? = none := by
      simp only [List.mem_cons, List.not_mem_nil, or_false] at hb
      unfold HclBlock.resource?
      rcases hb with hb | hb | hb <;> rw [hb]
    have hclosed : HooksClosed (b :: blocks) ↔ HooksClosed blocks := by
      apply hooksClosed_cons
      simp only [List.mem_cons, List.not_mem_nil, or_false] at hb
      rcases hb with hb | hb | hb <;> rw [hb] <;> simp [BlockKind.Scanned]
    rw [List.filterMap_cons_none hown, hclosed]
    exact ⟨added, hfound, hsublist, hiff⟩
  · exact absurd hkind (hskipped _ hword.2)

/-- A block that is scanned: the run arrives behind it, or behind the block that follows. -/
theorem scanAdds_scanned (hb : b.kind.Scanned)
    (hnests : ¬ NestsResource (b.body.map Lexeme.kind))
    (hnext : ∀ c rest, blocks = c :: rest → c.WellFormed ∧ ScanAdds rest) :
    ScanAdds (b :: blocks) := by
  intro turns toks resources found hkinds hscan
  obtain ⟨tok, rest, rfl, hkind, hrest⟩ := kinds_behind_word hkinds
  have hword : b.kind.word ≠ "resource" ∧ b.kind.word ∉ skippedKinds := by
    simp only [BlockKind.Scanned, List.mem_cons, List.not_mem_nil, or_false] at hb
    rcases hb with hb | hb | hb | hb <;> rw [hb] <;> exact ⟨by decide, by decide⟩
  have hown : b.resource? = none := by
    simp only [BlockKind.Scanned, List.mem_cons, List.not_mem_nil, or_false] at hb
    unfold HclBlock.resource?
    rcases hb with hb | hb | hb | hb <;> rw [hb]
  rw [List.filterMap_cons_none hown]
  obtain ⟨heq, _⟩ | ⟨word, hskipped, heq, _⟩ | ⟨_, _, turns', hgo⟩ := scanTopLevel_cons hscan
  · exact absurd (TokKind.ident.inj (hkind.symm.trans heq)) hword.1
  · rw [← TokKind.ident.inj (hkind.symm.trans heq)] at hskipped
    exact absurd hskipped hword.2
  rw [List.append_cons] at hrest
  obtain ⟨turns₁, toks₁, hkinds₁, hgo₁⟩ := scan_skip (by simp [leftBrace]) (by simp [leftBrace])
    hrest hgo
  obtain ⟨hleaves, turns₂, toks₂, hkinds₂, hgo₂⟩ |
    ⟨hleaves, turns₂, front, toks₂, body, parsed, hfront, hkinds₂, hbrace, hparsed, hgo₂⟩ :=
      scan_body _ _ (Nat.le_refl _) (fun t ht => hwf.body.suffix_le ht) hnests hkinds₁ hgo₁
  · obtain ⟨turns₃, toks₃, hkinds₃, hgo₃⟩ := @scan_skip [rightBrace] _ (by simp [rightBrace])
      (by simp [rightBrace]) _ _ _ _ hkinds₂ hgo₂
    rw [hooksClosed_cons fun h => hleaves h.2]
    exact hmore _ _ _ _ hkinds₃ hgo₃
  · cases blocks with
    | nil =>
        have hno : leftBrace ∉ kinds toks₂ := by
          rw [hkinds₂, List.mem_append, not_or]
          exact ⟨hfront, by simp [leftBrace, rightBrace]⟩
        rw [findBrace_none hno] at hbrace
        cases hbrace
    | cons c blocks =>
        -- The next block is taken for what the hook is the head of.
        obtain ⟨hcwf, hcmore⟩ := hnext c blocks rfl
        have hfront' : leftBrace ∉ front ++ rightBrace :: .ident c.kind.word ::
            c.labels.map TokKind.str := by
          simp [leftBrace, rightBrace] at hfront ⊢
          exact hfront
        obtain ⟨body', hbody', hinner⟩ := @findBrace_spec toks₂ _
          (c.body.map Lexeme.kind ++ rightBrace :: blocks.flatMap HclBlock.tokens) (by
            rw [hkinds₂]
            simp [HclBlock.tokens]) hfront'
        obtain rfl := Option.some.inj (hbrace.symm.trans hbody')
        have hafter := parseObject_takes hparsed hcwf.body hinner
        obtain ⟨added, hfound, hsublist, hiff⟩ := hcmore _ _ _ _ hafter hgo₂
        have hclosed : HooksClosed (b :: c :: blocks) ↔
            c.resource? = none ∧ HooksClosed blocks :=
          ⟨fun h => h.1 ⟨hb, hleaves⟩, fun h => ⟨fun _ => h, fun hnot => absurd ⟨hb, hleaves⟩ hnot⟩⟩
        refine ⟨added, hfound, hsublist.trans ((List.sublist_cons_self c blocks).filterMap _), ?_⟩
        rw [hclosed]
        cases hc : c.resource? with
        | none =>
            rw [List.filterMap_cons_none hc, hiff]
            exact (and_iff_right rfl).symm
        | some r =>
            rw [List.filterMap_cons_some hc]
            refine iff_of_false ?_ (fun h => Option.some_ne_none r h.1)
            intro heq
            have hle := hsublist.length_le
            rw [heq, List.length_cons] at hle
            omega

end Blocks

/-- Over the blocks of any file whose scanned bodies nest no resource. -/
theorem scan_blocks (n : Nat) : ∀ (blocks : List HclBlock), blocks.length ≤ n →
    (∀ b ∈ blocks, b.WellFormed) →
    (∀ b ∈ blocks, b.kind.Scanned → ¬ NestsResource (b.body.map Lexeme.kind)) →
    ScanAdds blocks := by
  induction n with
  | zero =>
      intro blocks hlength _ _
      rw [List.length_eq_zero_iff.mp (Nat.le_zero.mp hlength)]
      exact scanAdds_nil
  | succ n ih =>
      intro blocks hlength hwf hnests
      cases blocks with
      | nil => exact scanAdds_nil
      | cons b blocks =>
          rw [List.length_cons] at hlength
          have hown := hwf b List.mem_cons_self
          have hmore := ih blocks (by omega) (fun c hc => hwf c (List.mem_cons_of_mem b hc))
            (fun c hc => hnests c (List.mem_cons_of_mem b hc))
          by_cases hresource : b.kind = .resource
          · exact scanAdds_resource hown hmore hresource
          by_cases hskipped : b.kind ∈ [BlockKind.module, .data, .provider]
          · exact scanAdds_skipped hown hmore hskipped
          have hscanned : b.kind.Scanned := by
            unfold BlockKind.Scanned
            cases hb : b.kind <;> simp [hb] at hresource hskipped ⊢
          refine scanAdds_scanned hown hmore hscanned (hnests b List.mem_cons_self hscanned) ?_
          rintro c rest rfl
          rw [List.length_cons] at hlength
          exact ⟨hwf c (by simp), ih rest (by omega) (fun e he => hwf e (by simp [he]))
            (fun e he => hnests e (by simp [he]))⟩

/-- Which resources of a file the parser returns, where no comment is glued to a word and no
scanned body nests a resource: it refuses the file, or it returns them all just if none
stands behind a hook. -/
theorem parseHclResources_exact_iff {text : String} {blocks : List HclBlock}
    (hspells : Spells false text.toList (blocks.flatMap HclBlock.lexemes))
    (hwf : ∀ b ∈ blocks, b.WellFormed)
    (hnests : ∀ b ∈ blocks, b.kind.Scanned → ¬ NestsResource (b.body.map Lexeme.kind)) :
    (∃ message, parseHclResources text = .error (.parse message)) ∨
      ∃ found, parseHclResources text = .ok found ∧
        (found.map typeAndName = blocks.filterMap HclBlock.resource? ↔ HooksClosed blocks) := by
  cases hparse : parseHclResources text with
  | error failure =>
      cases failure with
      | parse message => exact Or.inl ⟨message, rfl⟩
      | outOfTurns => exact absurd hparse (parseHclResources_ne_outOfTurns text)
  | ok found =>
      obtain ⟨toks, htoks, hkinds⟩ := tokenizeFrom_spells hspells 1
      have htokens : kinds toks = blocks.flatMap HclBlock.tokens := by
        rw [kinds, hkinds, List.map_flatMap]
        exact List.flatMap_congr fun b hb => (hwf b hb).map_kind
      obtain ⟨toks', htoks', hscan⟩ := bind_eq_ok.mp hparse
      obtain rfl : toks = toks' := Except.ok.inj (htoks.symm.trans htoks')
      obtain ⟨added, hfound, _, hiff⟩ :=
        scan_blocks _ blocks (Nat.le_refl _) hwf hnests _ _ _ _ htokens hscan
      refine Or.inr ⟨found, rfl, ?_⟩
      rw [hfound, List.map_nil, List.nil_append]
      exact hiff

/-- An output that refers to a module, and a bucket behind it. -/
def hookFile : List HclBlock :=
  [⟨.output, ["id"], [.word "value", .mark '=', .word "module", .mark '.', .word "net",
      .mark '.', .word "id"]⟩,
    ⟨.resource, ["aws_s3_bucket", "b"], []⟩]

def hookText : String :=
  "output \"id\" \x7b\n value = module.net.id\n\x7d\nresource \"aws_s3_bucket\" \"b\" \x7b\n\x7d\n"

theorem hookText_spells : Spells false hookText.toList (hookFile.flatMap HclBlock.lexemes) := by
  have hlayout := @spells_layout false
    [(.word "output", [' ']), (.quoted "id".toList, [' ']), (.mark '\x7b', ['\n', ' ']),
      (.word "value", [' ']), (.mark '=', [' ']), (.word "module", []), (.mark '.', []),
      (.word "net", []), (.mark '.', []), (.word "id", ['\n']), (.mark '\x7d', ['\n']),
      (.word "resource", [' ']), (.quoted "aws_s3_bucket".toList, [' ']),
      (.quoted "b".toList, [' ']), (.mark '\x7b', ['\n']), (.mark '\x7d', ['\n'])]
    (by decide +kernel)
  exact hlayout

theorem hookFile_wellFormed : ∀ b ∈ hookFile, b.WellFormed := by
  intro b hb
  simp only [hookFile, List.mem_cons, List.not_mem_nil, or_false] at hb
  rcases hb with rfl | rfl
  · exact ⟨by simp, bracketBalanced_of_not_mem (by simp [leftBrace, Lexeme.kind])
      (by simp [rightBrace, Lexeme.kind])⟩
  · exact ⟨by simp, bracketBalanced_of_not_mem (by simp [leftBrace]) (by simp [rightBrace])⟩

/-- The theorem on that file. -/
theorem hookText_exact_iff :
    (∃ message, parseHclResources hookText = .error (.parse message)) ∨
      ∃ found, parseHclResources hookText = .ok found ∧
        (found.map typeAndName = hookFile.filterMap HclBlock.resource? ↔ HooksClosed hookFile) := by
  refine parseHclResources_exact_iff hookText_spells hookFile_wellFormed ?_
  intro b hb _
  simp only [hookFile, List.mem_cons, List.not_mem_nil, or_false] at hb
  rintro ⟨type, name, hinfix⟩
  have hmem := hinfix.subset List.mem_cons_self
  rcases hb with rfl | rfl <;> simp [Lexeme.kind] at hmem

/-- The bucket is dropped without an error. -/
theorem hookText_drops_resource :
    Spells false hookText.toList (hookFile.flatMap HclBlock.lexemes) ∧
      (∀ b ∈ hookFile, b.WellFormed) ∧
      hookFile.filterMap HclBlock.resource? = [("aws_s3_bucket", "b")] ∧
      parseHclResources hookText = .ok [] :=
  ⟨hookText_spells, hookFile_wellFormed, rfl, rfl⟩

end Scanner
end Ctem
