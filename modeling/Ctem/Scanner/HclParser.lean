import Ctem.Scanner.HclText

/-!
# The Terraform parser

The recursive descent over the tokens of a file: blocks, attributes, lists, objects
and references, and the loop over the top level that keeps the resources.

* `parseObject`, `parseValue` and `parseList` call each other; each call takes one of
  their `turns`, and `parse_ends` says how many are enough.
* `addBlock` collects the blocks of one name, as the source does with a plain object:
  a member that every object inherits counts as there.
* `scanTopLevel` is the loop of `parseHclResources`.  What is not a resource is skipped
  as a block when it is a module, data source or provider, and token by token when it
  is not.
-/

namespace Ctem
namespace Scanner

open Foundation

/-! ## Values -/

/-- `HclValue`.  The last case is what reading a member finds that no one has set: one of
those every object inherits. -/
inductive HclValue where
  | str (value : String)
  | number (value : Rat)
  | bool (value : Bool)
  | null
  | list (items : List HclValue)
  | obj (entries : List (String × HclValue))
  | inherited (name : String)

abbrev HclRecord := AssocMap String HclValue

/-- `HclResource`. -/
structure HclResource where
  type : String
  name : String
  address : String
  attributes : HclRecord
  startLine : Nat

/-- The members of `Object.prototype`. -/
def prototypeMembers : List String :=
  ["constructor", "__defineGetter__", "__defineSetter__", "hasOwnProperty", "__lookupGetter__",
    "__lookupSetter__", "isPrototypeOf", "propertyIsEnumerable", "toString", "valueOf",
    "__proto__", "toLocaleString"]

/-- `obj[key]`. -/
def readMember (obj : HclRecord) (key : String) : Option HclValue :=
  (obj.lookup? key).or (if key ∈ prototypeMembers then some (.inherited key) else none)

/-- `obj[key] = value`; an assignment to `__proto__` sets no member. -/
def setMember (obj : HclRecord) (key : String) (value : HclValue) : HclRecord :=
  if key = "__proto__" then obj else obj.upsert key fun _ => value

/-- The record of a nested block. -/
def blockRecord (labels : List String) (nested : HclRecord) : HclValue :=
  .obj (if labels = [] then nested
    else setMember nested "__labels" (.list (labels.map HclValue.str)))

/-- A nested block joins those of its name. -/
def addBlock (obj : HclRecord) (key : String) (labels : List String) (nested : HclRecord) :
    HclRecord :=
  let record := blockRecord labels nested
  match readMember obj key with
  | none => setMember obj key (.list [record])
  | some (.list existing) => setMember obj key (.list (existing ++ [record]))
  | some existing => setMember obj key (.list [existing, record])

/-! ## References -/

/-- The digits behind the point, as many as there are. -/
def fractionDigits : Nat → Nat → Nat → List Char
  | 0, _, _ => []
  | turns + 1, rest, den =>
      if rest = 0 then []
      else Char.ofNat ('0'.toNat + 10 * rest / den) :: fractionDigits turns (10 * rest % den) den

/-- `String(n)`, where it has no exponent. -/
def numberText (n : Rat) : String :=
  if n.den = 1 then toString n.num
  else (if n < 0 then "-" else "") ++ toString (n.num.natAbs / n.den) ++ "." ++
    String.ofList (fractionDigits n.den (n.num.natAbs % n.den) n.den)

/-- What a token adds to a reference behind a dot or a bracket. -/
def TokKind.partText : TokKind → Option String
  | ident value => some value
  | str value => some value
  | number value => some (numberText value)
  | punct _ => none

/-- A dot or an opening bracket. -/
def TokKind.stepMark : TokKind → Option String
  | punct '.' => some "."
  | punct '[' => some "["
  | _ => none

/-- The loop over the steps of a reference.  A closing bracket is taken only where nothing
stands in the brackets. -/
def readSteps : List Tok → String → String × List Tok
  | [], text => (text, [])
  | [tok], text =>
      match tok.kind.stepMark with
      | none => (text, [tok])
      | some mark => (text ++ mark, [])
  | tok :: part :: rest, text =>
      match tok.kind.stepMark with
      | none => (text, tok :: part :: rest)
      | some mark =>
          match part.kind.partText with
          | some value => readSteps rest (text ++ mark ++ value)
          | none =>
              if mark = "[" ∧ part.kind = .punct ']' then readSteps rest (text ++ mark)
              else readSteps (part :: rest) (text ++ mark)

/-- A value that begins with an identifier. -/
def identValue (name : String) (rest : List Tok) : HclValue × List Tok :=
  if name = "true" then (.bool true, rest)
  else if name = "false" then (.bool false, rest)
  else if name = "null" then (.null, rest)
  else (.str (readSteps rest name).1, (readSteps rest name).2)

/-! ## Blocks, values and lists -/

/-- What the next token is. -/
def nextKind (toks : List Tok) : Option TokKind :=
  toks.head?.map Tok.kind

/-- The labels in front of the brace of a block, and the tokens behind them. -/
def takeLabels : List Tok → List String × List Tok
  | ⟨.str label, _⟩ :: rest => (label :: (takeLabels rest).1, (takeLabels rest).2)
  | toks => ([], toks)

mutual

def parseObject : Nat → List Tok → HclRecord → Except HclFailure (HclRecord × List Tok)
  | 0, _, _ => .error .outOfTurns
  | _ + 1, [], _ => .error (.parse "Unclosed HCL block")
  | turns + 1, tok :: rest, obj =>
      if tok.kind = .punct '\x7d' then .ok (obj, rest)
      else
        match tok.kind with
        | .ident key =>
            if nextKind rest = some (.punct '=') then do
              let parsed ← parseValue turns rest.tail
              parseObject turns parsed.2 (setMember obj key parsed.1)
            else if nextKind (takeLabels rest).2 = some (.punct '\x7b') then do
              let nested ← parseObject turns (takeLabels rest).2.tail []
              parseObject turns nested.2 (addBlock obj key (takeLabels rest).1 nested.1)
            else .error (.parse ("Expected '\x7b' after block '" ++ key ++ "' at line " ++
              toString tok.line))
        | _ => .error (.parse ("Expected identifier in block at line " ++ toString tok.line))

def parseValue : Nat → List Tok → Except HclFailure (HclValue × List Tok)
  | 0, _ => .error .outOfTurns
  | _ + 1, [] => .error (.parse "Unexpected end of HCL while reading a value")
  | turns + 1, tok :: rest =>
      match tok.kind with
      | .str value => .ok (.str value, rest)
      | .number value => .ok (.number value, rest)
      | .ident name => .ok (identValue name rest)
      | .punct c =>
          if c = '[' then do
            let parsed ← parseList turns rest []
            pure (.list parsed.1, parsed.2)
          else if c = '\x7b' then do
            let parsed ← parseObject turns rest []
            pure (.obj parsed.1, parsed.2)
          else .error (.parse ("Unexpected token 'punct' at line " ++ toString tok.line))

def parseList : Nat → List Tok → List HclValue → Except HclFailure (List HclValue × List Tok)
  | 0, _, _ => .error .outOfTurns
  | _ + 1, [], _ => .error (.parse "Unclosed HCL list")
  | turns + 1, tok :: rest, items =>
      if tok.kind = .punct ']' then .ok (items, rest)
      else if tok.kind = .punct ',' then parseList turns rest items
      else do
        let parsed ← parseValue turns (tok :: rest)
        parseList turns parsed.2 (items ++ [parsed.1])

end

/-- Turns for any call on these tokens. -/
def turnsFor (toks : List Tok) : Nat := 2 * toks.length + 2

theorem nextKind_eq_some {toks : List Tok} {k : TokKind} (h : nextKind toks = some k) :
    ∃ tok, toks = tok :: toks.tail ∧ tok.kind = k := by
  cases toks with
  | nil => cases h
  | cons tok rest => exact ⟨tok, rfl, Option.some.inj h⟩

/-- What a successful call takes, by the rules of the grammar: one hypothesis for each way
a block, a value or a list can go on. -/
theorem parse_takes {PO PV PL : List Tok → List Tok → Prop}
    (hclose : ∀ (tok : Tok) rest, tok.kind = .punct '\x7d' → PO (tok :: rest) rest)
    (hattr : ∀ (tok : Tok) key (eq : Tok) rest mid after, tok.kind = .ident key →
      eq.kind = .punct '=' → PV rest mid → PO mid after → PO (tok :: eq :: rest) after)
    (hblock : ∀ (tok : Tok) key (rest : List Tok) (brace : Tok) body mid after,
      tok.kind = .ident key → (takeLabels rest).2 = brace :: body →
      brace.kind = .punct '\x7b' → PO body mid → PO mid after → PO (tok :: rest) after)
    (hstr : ∀ (tok : Tok) value rest, tok.kind = .str value → PV (tok :: rest) rest)
    (hnumber : ∀ (tok : Tok) value rest, tok.kind = .number value → PV (tok :: rest) rest)
    (hident : ∀ (tok : Tok) name (rest : List Tok), tok.kind = .ident name →
      PV (tok :: rest) (identValue name rest).2)
    (hlist : ∀ (tok : Tok) rest after, tok.kind = .punct '[' → PL rest after →
      PV (tok :: rest) after)
    (hobj : ∀ (tok : Tok) rest after, tok.kind = .punct '\x7b' → PO rest after →
      PV (tok :: rest) after)
    (hend : ∀ (tok : Tok) rest, tok.kind = .punct ']' → PL (tok :: rest) rest)
    (hcomma : ∀ (tok : Tok) rest after, tok.kind = .punct ',' → PL rest after →
      PL (tok :: rest) after)
    (hitem : ∀ (tok : Tok) rest mid after, tok.kind ≠ .punct ']' → tok.kind ≠ .punct ',' →
      PV (tok :: rest) mid → PL mid after → PL (tok :: rest) after) (turns : Nat) :
    (∀ toks obj r, parseObject turns toks obj = .ok r → PO toks r.2) ∧
      (∀ toks r, parseValue turns toks = .ok r → PV toks r.2) ∧
      ∀ toks items r, parseList turns toks items = .ok r → PL toks r.2 := by
  induction turns with
  | zero =>
      refine ⟨fun toks obj r h => ?_, fun toks r h => ?_, fun toks items r h => ?_⟩
      · rw [parseObject] at h
        cases h
      · rw [parseValue] at h
        cases h
      · rw [parseList] at h
        cases h
  | succ turns ih =>
      obtain ⟨ihObject, ihValue, ihList⟩ := ih
      refine ⟨?_, ?_, ?_⟩
      · intro toks obj r h
        cases toks with
        | nil => cases h
        | cons tok rest =>
            rw [parseObject] at h
            split at h
            · rename_i hkind
              obtain rfl := Except.ok.inj h
              exact hclose tok rest hkind
            · split at h
              · rename_i key hkey
                split at h
                · rename_i heq
                  obtain ⟨eq, hrest, heqkind⟩ := nextKind_eq_some heq
                  obtain ⟨parsed, hparsed, hafter⟩ := bind_eq_ok.mp h
                  rw [hrest]
                  exact hattr tok key eq rest.tail parsed.2 r.2 hkey heqkind
                    (ihValue _ _ hparsed) (ihObject _ _ _ hafter)
                · split at h
                  · rename_i hbrace
                    obtain ⟨brace, hlabels, hbracekind⟩ := nextKind_eq_some hbrace
                    obtain ⟨nested, hnested, hafter⟩ := bind_eq_ok.mp h
                    exact hblock tok key rest brace _ nested.2 r.2 hkey hlabels hbracekind
                      (ihObject _ _ _ hnested) (ihObject _ _ _ hafter)
                  · cases h
              · cases h
      · intro toks r h
        cases toks with
        | nil => cases h
        | cons tok rest =>
            rw [parseValue] at h
            split at h
            · rename_i value hkind
              obtain rfl := Except.ok.inj h
              exact hstr tok value rest hkind
            · rename_i value hkind
              obtain rfl := Except.ok.inj h
              exact hnumber tok value rest hkind
            · rename_i name hkind
              obtain rfl := Except.ok.inj h
              exact hident tok name rest hkind
            · rename_i c hkind
              split at h
              · rename_i hc
                obtain ⟨parsed, hparsed, hr⟩ := bind_eq_ok.mp h
                obtain rfl := Except.ok.inj hr
                exact hlist tok rest parsed.2 (hc ▸ hkind) (ihList _ _ _ hparsed)
              · split at h
                · rename_i hc
                  obtain ⟨parsed, hparsed, hr⟩ := bind_eq_ok.mp h
                  obtain rfl := Except.ok.inj hr
                  exact hobj tok rest parsed.2 (hc ▸ hkind) (ihObject _ _ _ hparsed)
                · cases h
      · intro toks items r h
        cases toks with
        | nil => cases h
        | cons tok rest =>
            rw [parseList] at h
            split at h
            · rename_i hkind
              obtain rfl := Except.ok.inj h
              exact hend tok rest hkind
            · rename_i hclosing
              split at h
              · rename_i hkind
                exact hcomma tok rest r.2 hkind (ihList _ _ _ h)
              · rename_i hseparator
                obtain ⟨parsed, hparsed, hafter⟩ := bind_eq_ok.mp h
                exact hitem tok rest parsed.2 r.2 hclosing hseparator (ihValue _ _ hparsed)
                  (ihList _ _ _ hafter)

/-! ## Every call takes something, and ends -/

theorem length_readSteps (toks : List Tok) (text : String) :
    (readSteps toks text).2.length ≤ toks.length := by
  fun_induction readSteps toks text <;> simp only [List.length_cons, List.length_nil] at * <;> omega

theorem length_identValue (name : String) (rest : List Tok) :
    (identValue name rest).2.length ≤ rest.length := by
  unfold identValue
  split
  · exact Nat.le_refl _
  split
  · exact Nat.le_refl _
  split
  · exact Nat.le_refl _
  · exact length_readSteps rest name

theorem length_takeLabels (toks : List Tok) : (takeLabels toks).2.length ≤ toks.length := by
  fun_induction takeLabels toks with
  | case1 _ _ _ ih => exact Nat.le_succ_of_le ih
  | case2 => exact Nat.le_refl _

theorem parse_shorter (turns : Nat) :
    (∀ toks obj r, parseObject turns toks obj = .ok r → r.2.length < toks.length) ∧
      (∀ toks r, parseValue turns toks = .ok r → r.2.length < toks.length) ∧
      ∀ toks items r, parseList turns toks items = .ok r → r.2.length < toks.length := by
  apply @parse_takes (fun toks after => after.length < toks.length)
    (fun toks after => after.length < toks.length) (fun toks after => after.length < toks.length)
  case hblock =>
    intro tok key rest brace body mid after _ hlabels _ hbody hmid
    have hle := length_takeLabels rest
    rw [hlabels] at hle
    simp only [List.length_cons] at *
    omega
  case hident =>
    intro tok name rest _
    exact Nat.lt_succ_of_le (length_identValue name rest)
  all_goals
    intros
    simp only [List.length_cons] at *
    omega

/-- Enough turns: two for each token, and one for a block or a list. -/
theorem parse_ends (turns : Nat) :
    (∀ toks obj, 2 * toks.length + 1 < turns → parseObject turns toks obj ≠ .error .outOfTurns) ∧
      (∀ toks, 2 * toks.length < turns → parseValue turns toks ≠ .error .outOfTurns) ∧
      ∀ toks items, 2 * toks.length + 1 < turns →
        parseList turns toks items ≠ .error .outOfTurns := by
  have hbind : ∀ {α β : Type} {first : Except HclFailure α} {next : α → Except HclFailure β},
      first ≠ .error .outOfTurns → (∀ a, first = .ok a → next a ≠ .error .outOfTurns) →
      (first >>= next) ≠ .error .outOfTurns := by
    intro α β first next hfirst hnext
    cases hcase : first with
    | error e => exact fun h => hfirst (hcase.trans (congrArg Except.error (Except.error.inj h)))
    | ok a => exact hnext a hcase
  induction turns with
  | zero => exact ⟨fun _ _ h => (nomatch h), fun _ h => (nomatch h), fun _ _ h => (nomatch h)⟩
  | succ turns ih =>
      obtain ⟨ihObject, ihValue, ihList⟩ := ih
      obtain ⟨shorterObject, shorterValue, shorterList⟩ := parse_shorter turns
      refine ⟨?_, ?_, ?_⟩
      · intro toks obj hturns
        cases toks with
        | nil => exact fun h => nomatch h
        | cons tok rest =>
            rw [List.length_cons] at hturns
            rw [parseObject]
            split
            · exact fun h => nomatch h
            · split
              · split
                · have htail : rest.tail.length ≤ rest.length := by
                    rw [List.length_tail]
                    exact Nat.sub_le _ _
                  refine hbind (ihValue _ (by omega)) ?_
                  intro parsed hparsed
                  have hshorter := shorterValue _ _ hparsed
                  exact ihObject _ _ (by omega)
                · split
                  · rename_i hbrace
                    obtain ⟨brace, hlabels, _⟩ := nextKind_eq_some hbrace
                    have hle := length_takeLabels rest
                    have htail := congrArg List.length hlabels
                    rw [List.length_cons] at htail
                    refine hbind (ihObject _ _ (by omega)) ?_
                    intro nested hnested
                    have hshorter := shorterObject _ _ _ hnested
                    exact ihObject _ _ (by omega)
                  · exact fun h => nomatch h
              · exact fun h => nomatch h
      · intro toks hturns
        cases toks with
        | nil => exact fun h => nomatch h
        | cons tok rest =>
            rw [List.length_cons] at hturns
            rw [parseValue]
            split
            · exact fun h => nomatch h
            · exact fun h => nomatch h
            · exact fun h => nomatch h
            · split
              · exact hbind (ihList _ _ (by omega)) fun _ _ h => nomatch h
              · split
                · exact hbind (ihObject _ _ (by omega)) fun _ _ h => nomatch h
                · exact fun h => nomatch h
      · intro toks items hturns
        cases toks with
        | nil => exact fun h => nomatch h
        | cons tok rest =>
            rw [List.length_cons] at hturns
            rw [parseList]
            split
            · exact fun h => nomatch h
            · split
              · exact ihList _ _ (by omega)
              · refine hbind (ihValue _ (by rw [List.length_cons]; omega)) ?_
                intro parsed hparsed
                have hshorter := shorterValue _ _ hparsed
                rw [List.length_cons] at hshorter
                exact ihList _ _ (by omega)

/-! ## The top level -/

/-- `findBrace`: the tokens behind the first opening brace. -/
def findBrace : List Tok → Option (List Tok)
  | [] => none
  | tok :: rest => if tok.kind = .punct '\x7b' then some rest else findBrace rest

/-- `resource`, `"type"`, `"name"` and the brace. -/
def resourceHeader? : List Tok → Option (String × String × List Tok)
  | ⟨.str type, _⟩ :: ⟨.str name, _⟩ :: ⟨.punct '\x7b', _⟩ :: body => some (type, name, body)
  | _ => none

/-- The blocks that are skipped whole: no module or provider source is fetched. -/
def skippedKinds : List String := ["module", "data", "provider"]

/-- The loop of `parseHclResources`. -/
def scanTopLevel : Nat → List Tok → List HclResource → Except HclFailure (List HclResource)
  | _, [], resources => .ok resources
  | 0, _ :: _, _ => .error .outOfTurns
  | turns + 1, tok :: rest, resources =>
      match tok.kind with
      | .ident word =>
          if word = "resource" then
            match resourceHeader? rest with
            | none => .error (.parse ("Malformed resource block at line " ++ toString tok.line))
            | some (type, name, body) => do
                let parsed ← parseObject (turnsFor body) body []
                scanTopLevel turns parsed.2 (resources ++
                  [⟨type, name, type ++ "." ++ name, parsed.1, tok.line⟩])
          else if word ∈ skippedKinds then
            match findBrace rest with
            | none =>
                .error (.parse ("Unclosed " ++ word ++ " block at line " ++ toString tok.line))
            | some body => do
                let parsed ← parseObject (turnsFor body) body []
                scanTopLevel turns parsed.2 resources
          else scanTopLevel turns rest resources
      | _ => scanTopLevel turns rest resources

def parseHclResources (content : String) : Except HclFailure (List HclResource) := do
  let toks ← tokenize content
  scanTopLevel toks.length toks []

theorem length_findBrace {toks body : List Tok} (h : findBrace toks = some body) :
    body.length < toks.length := by
  induction toks with
  | nil => cases h
  | cons tok rest ih =>
      unfold findBrace at h
      rw [List.length_cons]
      split at h
      · obtain rfl := Option.some.inj h
        exact Nat.lt_succ_self _
      · exact Nat.lt_succ_of_lt (ih h)

theorem resourceHeader?_eq_some {toks body : List Tok} {type name : String}
    (h : resourceHeader? toks = some (type, name, body)) :
    ∃ l₁ l₂ l₃, toks = ⟨.str type, l₁⟩ :: ⟨.str name, l₂⟩ :: ⟨.punct '\x7b', l₃⟩ :: body := by
  unfold resourceHeader? at h
  split at h
  · rename_i type' l₁ name' l₂ l₃ body'
    obtain ⟨rfl, hrest⟩ := Prod.mk.inj (Option.some.inj h)
    obtain ⟨rfl, rfl⟩ := Prod.mk.inj hrest
    exact ⟨l₁, l₂, l₃, rfl⟩
  · cases h

theorem scanTopLevel_ne_outOfTurns (turns : Nat) (toks : List Tok) (resources : List HclResource)
    (h : toks.length ≤ turns) : scanTopLevel turns toks resources ≠ .error .outOfTurns := by
  induction turns generalizing toks resources with
  | zero =>
      rw [List.length_eq_zero_iff.mp (Nat.le_zero.mp h)]
      exact fun h => nomatch h
  | succ turns ih =>
      cases toks with
      | nil => exact fun h => nomatch h
      | cons tok rest =>
          rw [List.length_cons] at h
          -- A block is parsed with turns to spare, and what is behind it is shorter.
          have hblock : ∀ (body : List Tok) (next : HclRecord × List Tok → List HclResource),
              body.length < rest.length + 1 → (do
                let parsed ← parseObject (turnsFor body) body []
                scanTopLevel turns parsed.2 (next parsed)) ≠ .error .outOfTurns := by
            intro body next hbody
            cases hparse : parseObject (turnsFor body) body [] with
            | error e =>
                intro hout
                have hends := (parse_ends (turnsFor body)).1 body [] (Nat.lt_succ_self _)
                exact hends (hparse.trans (congrArg Except.error (Except.error.inj hout)))
            | ok parsed =>
                have hshorter := (parse_shorter (turnsFor body)).1 body [] parsed hparse
                exact ih _ _ (by omega)
          rw [scanTopLevel]
          split
          · split
            · split
              · exact fun h => nomatch h
              · rename_i type name body hheader
                obtain ⟨_, _, _, hrest⟩ := resourceHeader?_eq_some hheader
                refine hblock body _ ?_
                rw [hrest]
                simp only [List.length_cons]
                omega
            · split
              · split
                · exact fun h => nomatch h
                · rename_i body hbrace
                  exact hblock body _ (Nat.lt_succ_of_lt (length_findBrace hbrace))
              · exact ih _ _ (by omega)
          · exact ih _ _ (by omega)

/-- The parser ends on every text, well-formed or not. -/
theorem parseHclResources_ne_outOfTurns (content : String) :
    parseHclResources content ≠ .error .outOfTurns := by
  unfold parseHclResources
  cases htoks : tokenize content with
  | error e =>
      intro h
      exact tokenizeFrom_ne_outOfTurns content.toList 1
        (htoks.trans (congrArg Except.error (Except.error.inj h)))
  | ok toks => exact scanTopLevel_ne_outOfTurns toks.length toks [] (Nat.le_refl _)

end Scanner
end Ctem
