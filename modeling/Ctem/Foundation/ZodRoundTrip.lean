import Ctem.Foundation.ZodSchema

/-!
# What a producer and a consumer parse

A value that a schema has parsed is written as JSON, and what is read is parsed with the same
schema.

* `RoundTrips` is stated of any parser; there is one lemma for each construction of the language.
* `Shape.Trips` is the case of an object, member by member: a consumer may find anything else in
  it, as long as it reads what is written of the members of the shape.
* `Schema.roundTrips`: the consumer gets what agrees precisely if the payload survives.
-/

namespace Ctem
namespace Foundation
namespace Zod

/-- What is parsed can be written and is parsed again as what agrees with it, precisely if the
value survives. -/
def RoundTrips (parse : JsValue → Option JsValue) (agree : JsValue → JsValue → Prop)
    (survives : JsValue → Prop) : Prop :=
  ∀ v a, parse v = some a →
    ((stringify a ≠ .throws ∧ ∃ b, parse (stringify a).received = some b ∧ agree a b) ↔ survives v)

/-! ## The leaves -/

theorem roundTrips_string (check : String → Bool) :
    RoundTrips (parseString check) (fun a b => b = a) fun _ => True := by
  intro v a hparse
  obtain ⟨s, rfl, hcheck, rfl⟩ := parseString_eq_some.mp hparse
  rw [iff_true]
  refine ⟨by simp [stringify], .str s, ?_, rfl⟩
  simp [stringify, Written.received, ofJson, parseString, hcheck]

theorem roundTrips_boolean : RoundTrips parseBoolean (fun a b => b = a) fun _ => True := by
  intro v a hparse
  obtain ⟨b, rfl, rfl⟩ := parseBoolean_eq_some.mp hparse
  rw [iff_true]
  refine ⟨by simp [stringify], .bool b, ?_, rfl⟩
  simp [stringify, Written.received, ofJson, parseBoolean]

/-- An infinite number is read as `null`, which is no number. -/
theorem roundTrips_number (check : JsNumber → Bool) :
    RoundTrips (parseNumber check) (fun a b => b = a) fun v =>
      ∀ n, v = .num n → isFinite n = true := by
  intro v a hparse
  obtain ⟨n, rfl, hcheck, rfl⟩ := parseNumber_eq_some.mp hparse
  cases n with
  | finite n =>
      refine iff_of_true ⟨by simp [stringify], .num (.finite n), ?_, rfl⟩ ?_
      · simp [stringify, Written.received, ofJson, parseNumber, hcheck]
      · intro n' hn
        rw [← JsValue.num.inj hn]
        rfl
  | infinity =>
      refine iff_of_false ?_ fun h => absurd (h .infinity rfl) Bool.false_ne_true
      simp [stringify, Written.received, ofJson, parseNumber]
  | minusInfinity =>
      refine iff_of_false ?_ fun h => absurd (h .minusInfinity rfl) Bool.false_ne_true
      simp [stringify, Written.received, ofJson, parseNumber]

/-- The text of a date is parsed as the same date. -/
theorem roundTrips_date (dateOf : JsValue → Option Int) :
    RoundTrips (parseDate dateOf) (fun a b => b = a) fun _ => True := by
  intro v a hparse
  obtain ⟨t, rfl, hrange⟩ := parseDate_eq_some hparse
  have hread : newDate dateOf (.str (isoString t)) = some t := by
    unfold newDate
    simp only [readTimeValue_isoString hrange, Option.some_or]
    rw [Option.filter_some, if_pos (by simp [hrange])]
  rw [iff_true]
  refine ⟨by simp [stringify], .date (some t), ?_, rfl⟩
  simp [stringify, Written.received, ofJson, parseDate, hread]

/-! ## Arrays and records -/

section Elements

variable {parse : JsValue → Option JsValue} {agree : JsValue → JsValue → Prop}
  {survives : JsValue → Prop}

/-- Nothing the parser returns is left out of its JSON. -/
def Kept (parse : JsValue → Option JsValue) : Prop :=
  ∀ v a, parse v = some a → stringify a ≠ .leftOut

/-- The first of two parsed in a row. -/
theorem mapM_cons_eq_some {α : Type} {β : Type} {f : α → Option β} {x : α} {xs : List α}
    {ys : List β} :
    (x :: xs).mapM f = some ys ↔ ∃ y rest, f x = some y ∧ xs.mapM f = some rest ∧
      ys = y :: rest := by
  rw [List.mapM_cons]
  constructor
  · intro h
    obtain ⟨y, hy, h⟩ := Option.bind_eq_some_iff.mp h
    obtain ⟨rest, hrest, h⟩ := Option.bind_eq_some_iff.mp h
    exact ⟨y, rest, hy, hrest, (Option.some.inj h).symm⟩
  · rintro ⟨y, rest, hy, hrest, rfl⟩
    rw [hy, Option.bind_eq_bind, Option.bind_some, hrest]
    rfl

theorem length_of_mapM {α : Type} {β : Type} {f : α → Option β} :
    ∀ {xs : List α} {ys : List β}, xs.mapM f = some ys → ys.length = xs.length
  | [], ys, h => by
      obtain rfl : ys = [] := (Option.some.inj h).symm
      rfl
  | x :: xs, ys, h => by
      obtain ⟨y, rest, -, hrest, rfl⟩ := mapM_cons_eq_some.mp h
      rw [List.length_cons, List.length_cons, length_of_mapM hrest]

/-- The elements of an array: all of them are written, and each of them comes back. -/
theorem roundTrips_items (htrips : RoundTrips parse agree survives) (hkept : Kept parse) :
    ∀ {items parsed : List JsValue}, items.mapM parse = some parsed →
      ((∃ written received, stringifyItems parsed = some written ∧
        (ofItems written).mapM parse = some received ∧ List.Forall₂ agree parsed received) ↔
        ∀ item ∈ items, survives item)
  | [], parsed, hparsed => by
      obtain rfl : parsed = [] := (Option.some.inj hparsed).symm
      refine iff_of_true ⟨[], [], by rw [stringifyItems], by rw [ofItems]; rfl, .nil⟩ ?_
      intro item hitem
      exact absurd hitem List.not_mem_nil
  | item :: items, parsed, hparsed => by
      obtain ⟨a, rest, ha, hrest, rfl⟩ := mapM_cons_eq_some.mp hparsed
      rw [List.forall_mem_cons, ← htrips item a ha, ← roundTrips_items htrips hkept hrest,
        stringifyItems]
      cases hitem : stringify a with
      | leftOut => exact absurd hitem (hkept item a ha)
      | throws =>
          refine iff_of_false ?_ fun h => h.1.1 rfl
          rintro ⟨written, received, hwritten, -⟩
          cases hwritten
      | json json =>
          constructor
          · rintro ⟨written, received, hwritten, hreceived, hall⟩
            obtain ⟨later, hlater, rfl⟩ := Option.map_eq_some_iff.mp hwritten
            rw [ofItems] at hreceived
            obtain ⟨b, others, hb, hothers, rfl⟩ := mapM_cons_eq_some.mp hreceived
            rw [List.forall₂_cons] at hall
            exact ⟨⟨Written.noConfusion, b, hb, hall.1⟩, later, others, hlater, hothers, hall.2⟩
          · rintro ⟨⟨-, b, hb, hagree⟩, later, others, hlater, hothers, hall⟩
            refine ⟨json :: later, b :: others, by rw [hlater]; rfl, ?_, .cons hagree hall⟩
            rw [ofItems]
            exact mapM_cons_eq_some.mpr ⟨b, others, hb, hothers, rfl⟩

theorem roundTrips_array (htrips : RoundTrips parse agree survives) (hkept : Kept parse)
    (length : Nat → Bool) :
    RoundTrips (parseArray parse length) (AgreeItems agree) fun v =>
      ∀ items, v = .arr items → ∀ item ∈ items, survives item := by
  intro v a hparse
  obtain ⟨items, parsed, rfl, hlength, hparsed, rfl⟩ := parseArray_eq_some.mp hparse
  have hitems : (∀ items', JsValue.arr items = .arr items' → ∀ item ∈ items', survives item) ↔
      ∀ item ∈ items, survives item := by
    simp only [JsValue.arr.injEq, forall_eq']
  refine Iff.trans ?_ ((roundTrips_items htrips hkept hparsed).trans hitems.symm)
  rw [stringify]
  cases hwritten : stringifyItems parsed with
  | none =>
      refine iff_of_false (fun h => h.1 rfl) ?_
      rintro ⟨written, received, hwritten', -⟩
      cases hwritten'
  | some written =>
      show _ ∧ (∃ b, parseArray parse length (ofJson (.arr written)) = some b ∧ _) ↔ _
      rw [ofJson]
      constructor
      · rintro ⟨-, b, hb, items', received, hitems', rfl, hall⟩
        obtain rfl := JsValue.arr.inj hitems'
        obtain ⟨items'', parsed', hitems'', -, hparsed', hreceived⟩ := parseArray_eq_some.mp hb
        obtain rfl := JsValue.arr.inj hitems''
        obtain rfl := JsValue.arr.inj hreceived
        exact ⟨written, received, rfl, hparsed', hall⟩
      · rintro ⟨written', received, hwritten', hreceived, hall⟩
        obtain rfl := Option.some.inj hwritten'
        have hsame : (ofItems written).length = items.length := by
          rw [← length_of_mapM hreceived, ← hall.length_eq, length_of_mapM hparsed]
        refine ⟨Written.noConfusion, .arr received, ?_, parsed, received, rfl, rfl, hall⟩
        exact parseArray_eq_some.mpr ⟨_, received, rfl, by rw [hsame, hlength], hreceived, rfl⟩

/-- The entries of a record: all but the dropped ones are written, and each of them comes back. -/
theorem roundTrips_entries (htrips : RoundTrips parse agree survives) (hkept : Kept parse) :
    ∀ {members entries : List (String × JsValue)}, members.mapM (parseEntry parse) = some entries →
      ((∃ written received, stringifyMembers (entries.filter isOwn) = some written ∧
        (ofMembers written).mapM (parseEntry parse) = some received ∧
        List.Forall₂ (fun entry entry' => entry'.1 = entry.1 ∧ agree entry.2 entry'.2)
          (entries.filter isOwn) (received.filter isOwn)) ↔
        ∀ entry ∈ members, entry.1 ≠ "__proto__" → survives entry.2)
  | [], entries, hentries => by
      obtain rfl : entries = [] := (Option.some.inj hentries).symm
      refine iff_of_true ⟨[], [], by rw [List.filter_nil, stringifyMembers],
        by rw [ofMembers]; rfl, .nil⟩ ?_
      intro entry hentry
      exact absurd hentry List.not_mem_nil
  | (key, member) :: members, entries, hentries => by
      obtain ⟨entry, rest, hentry, hrest, rfl⟩ := mapM_cons_eq_some.mp hentries
      obtain ⟨a, ha, rfl⟩ := Option.map_eq_some_iff.mp hentry
      have hlater := roundTrips_entries htrips hkept hrest
      by_cases hproto : key = "__proto__"
      · have hdropped : ¬ isOwn (key, a) = true := by simp [isOwn, hproto]
        rw [List.filter_cons_of_neg hdropped, hlater, List.forall_mem_cons]
        exact (and_iff_right fun hown => absurd hproto hown).symm
      · have hown : ∀ x : JsValue, isOwn (key, x) = true := fun x => by simp [isOwn, hproto]
        have hmember : ((key, member).1 ≠ "__proto__" → survives member) ↔ survives member := by
          simp [hproto]
        rw [List.filter_cons_of_pos (hown a), List.forall_mem_cons, hmember, ← htrips member a ha,
          ← hlater, stringifyMembers]
        cases hwritten : stringify a with
        | leftOut => exact absurd hwritten (hkept member a ha)
        | throws =>
            refine iff_of_false ?_ fun h => h.1.1 rfl
            rintro ⟨written, received, hnone, -⟩
            cases hnone
        | json json =>
            constructor
            · rintro ⟨written, received, hsome, hreceived, hall⟩
              obtain ⟨later, hlaterWritten, rfl⟩ := Option.map_eq_some_iff.mp hsome
              rw [ofMembers] at hreceived
              obtain ⟨entry', others, hentry', hothers, rfl⟩ := mapM_cons_eq_some.mp hreceived
              obtain ⟨b, hb, rfl⟩ := Option.map_eq_some_iff.mp hentry'
              rw [List.filter_cons_of_pos (hown b), List.forall₂_cons] at hall
              exact ⟨⟨Written.noConfusion, b, hb, hall.1.2⟩, later, others, hlaterWritten, hothers,
                hall.2⟩
            · rintro ⟨⟨-, b, hb, hagree⟩, later, others, hlaterWritten, hothers, hall⟩
              refine ⟨(key, json) :: later, (key, b) :: others, by rw [hlaterWritten]; rfl, ?_, ?_⟩
              · rw [ofMembers]
                exact mapM_cons_eq_some.mpr
                  ⟨(key, b), others, Option.map_eq_some_iff.mpr ⟨b, hb, rfl⟩, hothers, rfl⟩
              · rw [List.filter_cons_of_pos (hown b)]
                exact .cons ⟨rfl, hagree⟩ hall

theorem roundTrips_record (htrips : RoundTrips parse agree survives) (hkept : Kept parse) :
    RoundTrips (parseRecord parse) (AgreeEntries agree) fun v =>
      ∀ members, v = .obj members → ∀ entry ∈ members,
        entry.1 ≠ "__proto__" → survives entry.2 := by
  intro v a hparse
  obtain ⟨members, entries, rfl, hentries, rfl⟩ := parseRecord_eq_some.mp hparse
  have hmembers : (∀ members', JsValue.obj members = .obj members' → ∀ entry ∈ members',
      entry.1 ≠ "__proto__" → survives entry.2) ↔
      ∀ entry ∈ members, entry.1 ≠ "__proto__" → survives entry.2 := by
    simp only [JsValue.obj.injEq, forall_eq']
  refine Iff.trans ?_ ((roundTrips_entries htrips hkept hentries).trans hmembers.symm)
  rw [stringify]
  cases hwritten : stringifyMembers (entries.filter isOwn) with
  | none =>
      refine iff_of_false (fun h => h.1 rfl) ?_
      rintro ⟨written, received, hnone, -⟩
      cases hnone
  | some written =>
      show _ ∧ (∃ b, parseRecord parse (ofJson (.obj written)) = some b ∧ _) ↔ _
      rw [ofJson]
      constructor
      · rintro ⟨-, b, hb, members', received, hmembers', rfl, hall⟩
        obtain rfl := JsValue.obj.inj hmembers'
        obtain ⟨members'', entries', hmembers'', hentries', hreceived⟩ := parseRecord_eq_some.mp hb
        obtain rfl := JsValue.obj.inj hmembers''
        obtain rfl := JsValue.obj.inj hreceived
        exact ⟨written, entries', rfl, hentries', hall⟩
      · rintro ⟨written', received, hwritten', hreceived, hall⟩
        obtain rfl := Option.some.inj hwritten'
        exact ⟨Written.noConfusion, _, parseRecord_eq_some.mpr ⟨_, received, rfl, hreceived, rfl⟩,
          _, _, rfl, rfl, hall⟩

end Elements

/-! ## Records of unknown values -/

/-- What is written of unknown entries is received, as far as it is made of JSON values. -/
theorem agree_unknown_entries : ∀ (members : List (String × JsValue)) (written : JsonObject),
    (∀ entry ∈ members, isOwn entry = true) → stringifyMembers members = some written →
    List.Forall₂ (fun entry entry' => entry'.1 = entry.1 ∧
      (entry.2.isJson = true → entry'.2 = entry.2))
      (members.filter fun entry => !isLeftOut entry) ((ofMembers written).filter isOwn)
  | [], written, _, hwritten => by
      rw [stringifyMembers] at hwritten
      obtain rfl : written = [] := (Option.some.inj hwritten).symm
      exact .nil
  | (key, member) :: members, written, hown, hwritten => by
      rw [List.forall_mem_cons] at hown
      rw [stringifyMembers] at hwritten
      cases hmember : stringify member with
      | throws =>
          simp only [hmember] at hwritten
          cases hwritten
      | leftOut =>
          simp only [hmember] at hwritten
          have hleft : isLeftOut (key, member) = true := by simp [isLeftOut, hmember]
          rw [List.filter_cons_of_neg (by simp [hleft])]
          exact agree_unknown_entries members written hown.2 hwritten
      | json json =>
          simp only [hmember] at hwritten
          obtain ⟨later, hlater, rfl⟩ := Option.map_eq_some_iff.mp hwritten
          have hleft : isLeftOut (key, member) = false := by simp [isLeftOut, hmember]
          have hkey : isOwn (key, ofJson json) = true := hown.1
          rw [List.filter_cons_of_pos (by simp [hleft]), ofMembers,
            List.filter_cons_of_pos hkey]
          refine .cons ⟨rfl, ?_⟩ (agree_unknown_entries members later hown.2 hlater)
          intro hjson
          obtain ⟨json', hjson', hread⟩ := ofJson_of_isJson hjson
          rw [hmember] at hjson'
          rw [Written.json.inj hjson']
          exact hread

/-- A record of unknown values without a `toJSON` is received as an object, once it is written. -/
theorem unknownRecord_received (orEmpty : Bool) (members : List (String × JsValue)) :
    (stringify (.obj (members.filter isOwn)) ≠ .throws ∧
      ∃ b, parseUnknownRecord orEmpty (stringify (.obj (members.filter isOwn))).received = some b ∧
        AgreeUnknown (.obj (members.filter isOwn)) b) ↔
      stringifyMembers (members.filter isOwn) ≠ none := by
  rw [stringify]
  cases hwritten : stringifyMembers (members.filter isOwn) with
  | none => exact iff_of_false (fun h => h.1 rfl) fun h => h rfl
  | some written =>
      refine iff_of_true ⟨Written.noConfusion, ?_⟩ (Option.some_ne_none written)
      show ∃ b, parseUnknownRecord orEmpty (ofJson (.obj written)) = some b ∧ _
      rw [ofJson]
      exact ⟨_, rfl, _, rfl, agree_unknown_entries _ written
        (fun entry hentry => (List.mem_filter.mp hentry).2) hwritten⟩

theorem roundTrips_unknownRecord (orEmpty : Bool) :
    RoundTrips (parseUnknownRecord orEmpty) AgreeUnknown (SurvivesUnknown orEmpty) := by
  intro v a hparse
  unfold parseUnknownRecord at hparse
  unfold SurvivesUnknown
  split at hparse
  · obtain rfl := Option.some.inj hparse
    rw [unknownRecord_received]
    simp only [JsValue.obj.injEq, forall_eq', reduceCtorEq, false_implies, implies_true, and_true]
  · rename_i members written
    obtain rfl := Option.some.inj hparse
    simp only [stringify, JsValue.hooked.injEq, reduceCtorEq, false_implies, implies_true,
      true_and]
    -- whatever comes back agrees: a function is no JSON value
    cases written with
    | throws => simp
    | leftOut => cases orEmpty <;> simp [Written.received, parseUnknownRecord, AgreeUnknown]
    | json value =>
        cases value <;> simp [Written.received, ofJson, parseUnknownRecord, AgreeUnknown]
  · split at hparse
    case isTrue =>
      obtain rfl := Option.some.inj hparse
      have hempty := unknownRecord_received orEmpty []
      rw [List.filter_nil] at hempty
      rw [hempty, stringifyMembers]
      simp
    case isFalse => cases hparse
  · cases hparse

/-! ## Members of an object -/

section Members

variable {vs : List (String × JsValue)} {key : String}

theorem memberOf_cons_self (value : JsValue) : memberOf ((key, value) :: vs) key = value := by
  rw [memberOf, List.lookup_cons_self, Option.getD_some]

theorem memberOf_cons_ne {other : String} (h : key ≠ other) (value : JsValue) :
    memberOf ((other, value) :: vs) key = memberOf vs key := by
  rw [memberOf, List.lookup_cons, beq_false_of_ne h]
  rfl

/-- A member that is not there is `undefined`. -/
theorem memberOf_of_notMem (h : key ∉ vs.map Prod.fst) : memberOf vs key = .undefined := by
  induction vs with
  | nil => rfl
  | cons entry vs ih =>
      rw [List.map_cons, List.mem_cons, not_or] at h
      rw [memberOf_cons_ne h.1, ih h.2]

/-- Of members with different keys each is read under its key. -/
theorem memberOf_of_mem {entry : String × JsValue} (hnodup : (vs.map Prod.fst).Nodup)
    (hentry : entry ∈ vs) : memberOf vs entry.1 = entry.2 := by
  induction vs with
  | nil => exact absurd hentry List.not_mem_nil
  | cons first vs ih =>
      rw [List.map_cons, List.nodup_cons] at hnodup
      obtain rfl | hlater := List.mem_cons.mp hentry
      · exact memberOf_cons_self entry.2
      · have hne : entry.1 ≠ first.1 := fun heq =>
          hnodup.1 (heq ▸ List.mem_map_of_mem hlater)
        rw [memberOf_cons_ne hne, ih hnodup.2 hlater]

/-- A member is set, but for an `undefined` one that is not there. -/
theorem setMember_cases (members : List (String × JsValue)) (key : String) (value : JsValue)
    (parsed : List (String × JsValue)) :
    (value = .undefined ∧ setMember members key value parsed = parsed) ∨
      setMember members key value parsed = (key, value) :: parsed := by
  unfold setMember
  split
  · exact .inl ⟨rfl, rfl⟩
  · exact .inr rfl

theorem memberOf_setMember_self {ms parsed : List (String × JsValue)} {value : JsValue}
    (h : key ∉ parsed.map Prod.fst) : memberOf (setMember ms key value parsed) key = value := by
  obtain ⟨rfl, hset⟩ | hset := setMember_cases ms key value parsed
  · rw [hset, memberOf_of_notMem h]
  · rw [hset, memberOf_cons_self]

theorem memberOf_setMember_ne {ms parsed : List (String × JsValue)} {value : JsValue}
    {other : String} (h : other ≠ key) :
    memberOf (setMember ms key value parsed) other = memberOf parsed other := by
  obtain ⟨-, hset⟩ | hset := setMember_cases ms key value parsed
  · rw [hset]
  · rw [hset, memberOf_cons_ne h]

/-- Of members with different keys each is read as it is written. -/
theorem memberOf_stringifyMembers : ∀ {vs : List (String × JsValue)} {written : JsonObject},
    (vs.map Prod.fst).Nodup → stringifyMembers vs = some written → ∀ key,
      stringify (memberOf vs key) ≠ .throws ∧
        memberOf (ofMembers written) key = (stringify (memberOf vs key)).received
  | [], written, _, hwritten, key => by
      rw [stringifyMembers] at hwritten
      obtain rfl : written = [] := (Option.some.inj hwritten).symm
      rw [memberOf_of_notMem (List.not_mem_nil), stringify]
      exact ⟨Written.noConfusion, by rw [ofMembers]; rfl⟩
  | (first, member) :: vs, written, hnodup, hwritten, key => by
      rw [List.map_cons, List.nodup_cons] at hnodup
      rw [stringifyMembers] at hwritten
      cases hmember : stringify member with
      | throws =>
          rw [hmember] at hwritten
          cases hwritten
      | leftOut =>
          rw [hmember] at hwritten
          have hrest := memberOf_stringifyMembers hnodup.2 hwritten key
          by_cases hkey : key = first
          · subst hkey
            rw [memberOf_of_notMem hnodup.1, stringify] at hrest
            rw [memberOf_cons_self, hmember]
            exact hrest
          · rw [memberOf_cons_ne hkey]
            exact hrest
      | json json =>
          rw [hmember] at hwritten
          obtain ⟨later, hlater, rfl⟩ := Option.map_eq_some_iff.mp hwritten
          rw [ofMembers]
          by_cases hkey : key = first
          · subst hkey
            rw [memberOf_cons_self, memberOf_cons_self, hmember]
            exact ⟨Written.noConfusion, rfl⟩
          · rw [memberOf_cons_ne hkey, memberOf_cons_ne hkey]
            exact memberOf_stringifyMembers hnodup.2 hlater key

/-- Members are written where none of them throws. -/
theorem exists_stringifyMembers : ∀ {vs : List (String × JsValue)},
    (∀ entry ∈ vs, stringify entry.2 ≠ .throws) → ∃ written, stringifyMembers vs = some written
  | [], _ => ⟨[], by rw [stringifyMembers]⟩
  | (first, member) :: vs, hsent => by
      rw [List.forall_mem_cons] at hsent
      obtain ⟨later, hlater⟩ := exists_stringifyMembers hsent.2
      rw [stringifyMembers]
      cases hmember : stringify member with
      | throws => exact absurd hmember hsent.1
      | leftOut => exact ⟨later, hlater⟩
      | json json => exact ⟨(first, json) :: later, by rw [hlater]; rfl⟩

/-- What is written of each member, as members. -/
theorem memberOf_map_received : ∀ (vs : List (String × JsValue)) (key : String),
    memberOf (vs.map fun entry => (entry.1, (stringify entry.2).received)) key =
      (stringify (memberOf vs key)).received
  | [], key => by
      rw [List.map_nil, memberOf_of_notMem List.not_mem_nil, stringify]
      rfl
  | (first, member) :: vs, key => by
      rw [List.map_cons]
      by_cases hkey : key = first
      · subst hkey
        rw [memberOf_cons_self, memberOf_cons_self]
      · rw [memberOf_cons_ne hkey, memberOf_cons_ne hkey, memberOf_map_received vs key]

end Members

/-! ## Objects -/

section Objects

variable {dateOf : JsValue → Option Int}

/-- The first of the members of a shape. -/
theorem Shape.parse_cons_eq_some {key : String} {schema : Schema} {rest : Shape}
    {ms vs : List (String × JsValue)} :
    (Shape.cons key schema rest).parse dateOf ms = some vs ↔
      ∃ a later, schema.parse dateOf (memberOf ms key) = some a ∧
        rest.parse dateOf ms = some later ∧ vs = setMember ms key a later := by
  constructor
  · intro h
    obtain ⟨a, ha, h⟩ := Option.bind_eq_some_iff.mp h
    obtain ⟨later, hlater, rfl⟩ := Option.map_eq_some_iff.mp h
    exact ⟨a, later, ha, hlater, rfl⟩
  · rintro ⟨a, later, ha, hlater, rfl⟩
    show (schema.parse dateOf (memberOf ms key)).bind _ = _
    rw [ha, Option.bind_some, hlater, Option.map_some]

theorem Shape.agrees_cons {key : String} {schema : Schema} {rest : Shape}
    {vs ws : List (String × JsValue)} :
    (Shape.cons key schema rest).Agrees vs ws ↔
      schema.Agrees (memberOf vs key) (memberOf ws key) ∧ rest.Agrees vs ws :=
  Iff.rfl

theorem Shape.survives_cons {key : String} {schema : Schema} {rest : Shape}
    {ms : List (String × JsValue)} :
    (Shape.cons key schema rest).Survives ms ↔
      schema.Survives (memberOf ms key) ∧ rest.Survives ms :=
  Iff.rfl

/-- An object is stripped to its shape, with no key twice. -/
theorem Shape.keys_of_parse : ∀ {shape : Shape} {ms vs : List (String × JsValue)},
    shape.keys.Nodup → shape.parse dateOf ms = some vs →
      (vs.map Prod.fst).Nodup ∧ ∀ key ∈ vs.map Prod.fst, key ∈ shape.keys
  | .nil, ms, vs, _, hparse => by
      rw [Shape.parse] at hparse
      obtain rfl : vs = [] := (Option.some.inj hparse).symm
      exact ⟨List.nodup_nil, fun key hkey => absurd hkey List.not_mem_nil⟩
  | .cons key schema rest, ms, vs, hnodup, hparse => by
      rw [Shape.keys, List.nodup_cons] at hnodup
      obtain ⟨a, later, -, hlater, rfl⟩ := Shape.parse_cons_eq_some.mp hparse
      obtain ⟨hdistinct, hshape⟩ := Shape.keys_of_parse hnodup.2 hlater
      rw [Shape.keys]
      obtain ⟨-, hset⟩ | hset := setMember_cases ms key a later
      · rw [hset]
        exact ⟨hdistinct, fun k hk => List.mem_cons_of_mem key (hshape k hk)⟩
      · rw [hset, List.map_cons, List.nodup_cons, List.forall_mem_cons]
        exact ⟨⟨fun hkey => hnodup.1 (hshape key hkey), hdistinct⟩, List.mem_cons_self,
          fun k hk => List.mem_cons_of_mem key (hshape k hk)⟩

/-- Agreement of two objects is about the members of their shape. -/
theorem Shape.agrees_congr : ∀ {shape : Shape} {vs vs' ws ws' : List (String × JsValue)},
    (∀ key ∈ shape.keys, memberOf vs key = memberOf vs' key ∧ memberOf ws key = memberOf ws' key) →
      (shape.Agrees vs ws ↔ shape.Agrees vs' ws')
  | .nil, vs, vs', ws, ws', _ => Iff.rfl
  | .cons key schema rest, vs, vs', ws, ws', h => by
      rw [Shape.keys, List.forall_mem_cons] at h
      rw [Shape.agrees_cons, Shape.agrees_cons, h.1.1, h.1.2, Shape.agrees_congr h.2]

/-- The round trip of the members of a shape, where `ns` has what is written of them. -/
def Shape.Trips (dateOf : JsValue → Option Int) (shape : Shape) : Prop :=
  ∀ ms vs ns, shape.parse dateOf ms = some vs →
    (∀ key ∈ shape.keys, memberOf ns key = (stringify (memberOf vs key)).received) →
    (((∀ key ∈ shape.keys, stringify (memberOf vs key) ≠ .throws) ∧
      ∃ ws, shape.parse dateOf ns = some ws ∧ shape.Agrees vs ws) ↔ shape.Survives ms)

theorem Shape.trips_nil : Shape.nil.Trips dateOf := by
  intro ms vs ns hparse _
  exact iff_of_true ⟨fun key hkey => absurd hkey List.not_mem_nil, [], rfl, trivial⟩ trivial

theorem Shape.trips_cons {key : String} {schema : Schema} {rest : Shape}
    (hschema : RoundTrips (schema.parse dateOf) schema.Agrees schema.Survives)
    (hrest : rest.Trips dateOf) (hnodup : (Shape.cons key schema rest).keys.Nodup) :
    (Shape.cons key schema rest).Trips dateOf := by
  intro ms vs ns hparse hns
  obtain ⟨a, later, ha, hlater, rfl⟩ := Shape.parse_cons_eq_some.mp hparse
  rw [Shape.keys, List.nodup_cons] at hnodup
  have hshape := (Shape.keys_of_parse hnodup.2 hlater).2
  have hfresh : ∀ {ws : List (String × JsValue)}, (∀ k ∈ ws.map Prod.fst, k ∈ rest.keys) →
      key ∉ ws.map Prod.fst := fun hws hkey => hnodup.1 (hws key hkey)
  have hself : memberOf (setMember ms key a later) key = a :=
    memberOf_setMember_self (hfresh hshape)
  have hothers : ∀ {ms ws : List (String × JsValue)} {value : JsValue}, ∀ k ∈ rest.keys,
      memberOf (setMember ms key value ws) k = memberOf ws k := by
    intro ms ws value k hk
    apply memberOf_setMember_ne
    rintro rfl
    exact hnodup.1 hk
  rw [Shape.keys, List.forall_mem_cons, hself] at hns
  have hsame : ∀ b others, rest.parse dateOf ns = some others →
      ((Shape.cons key schema rest).Agrees (setMember ms key a later) (setMember ns key b others) ↔
        schema.Agrees a b ∧ rest.Agrees later others) := by
    intro b others hothersParse
    rw [Shape.agrees_cons, hself,
      memberOf_setMember_self (hfresh (Shape.keys_of_parse hnodup.2 hothersParse).2),
      Shape.agrees_congr fun k hk => ⟨hothers k hk, hothers k hk⟩]
  have htail := hrest ms later ns hlater fun k hk => by rw [hns.2 k hk, hothers k hk]
  have hsent : (∀ k ∈ (Shape.cons key schema rest).keys,
      stringify (memberOf (setMember ms key a later) k) ≠ .throws) ↔
      stringify a ≠ .throws ∧ ∀ k ∈ rest.keys, stringify (memberOf later k) ≠ .throws := by
    rw [Shape.keys, List.forall_mem_cons, hself]
    exact and_congr_right fun _ => forall₂_congr fun k hk => by rw [hothers k hk]
  rw [hsent, Shape.survives_cons, ← hschema _ a ha, ← htail, ← hns.1]
  constructor
  · rintro ⟨⟨hfirst, hlaterSent⟩, ws, hws, hagree⟩
    obtain ⟨b, others, hb, hothersParse, rfl⟩ := Shape.parse_cons_eq_some.mp hws
    obtain ⟨hagreeFirst, hagreeRest⟩ := (hsame b others hothersParse).mp hagree
    exact ⟨⟨hfirst, b, hb, hagreeFirst⟩, hlaterSent, others, hothersParse, hagreeRest⟩
  · rintro ⟨⟨hfirst, b, hb, hagreeFirst⟩, hlaterSent, others, hothersParse, hagreeRest⟩
    exact ⟨⟨hfirst, hlaterSent⟩, _, Shape.parse_cons_eq_some.mpr ⟨b, others, hb, hothersParse, rfl⟩,
      (hsame b others hothersParse).mpr ⟨hagreeFirst, hagreeRest⟩⟩

theorem parse_object_eq_some {shape : Shape} {v a : JsValue} :
    (Schema.object shape).parse dateOf v = some a ↔
      ∃ ms vs, members? v = some ms ∧ shape.parse dateOf ms = some vs ∧ a = .obj vs := by
  constructor
  · intro h
    obtain ⟨ms, hms, h⟩ := Option.bind_eq_some_iff.mp h
    obtain ⟨vs, hvs, rfl⟩ := Option.map_eq_some_iff.mp h
    exact ⟨ms, vs, hms, hvs, rfl⟩
  · rintro ⟨ms, vs, hms, hvs, rfl⟩
    show (members? v).bind _ = _
    rw [hms, Option.bind_some, hvs, Option.map_some]

theorem roundTrips_object {shape : Shape} (htrips : shape.Trips dateOf)
    (hnodup : shape.keys.Nodup) :
    RoundTrips ((Schema.object shape).parse dateOf) (Schema.object shape).Agrees
      (Schema.object shape).Survives := by
  intro v a hparse
  obtain ⟨ms, vs, hms, hvs, rfl⟩ := parse_object_eq_some.mp hparse
  obtain ⟨hdistinct, hshape⟩ := Shape.keys_of_parse hnodup hvs
  have hsurvives : (Schema.object shape).Survives v ↔ shape.Survives ms := by
    show (∀ members, members? v = some members → shape.Survives members) ↔ _
    simp only [hms, Option.some.injEq, forall_eq']
  rw [hsurvives, stringify]
  cases hwritten : stringifyMembers vs with
  | none =>
      refine iff_of_false (fun h => h.1 rfl) fun hall => ?_
      obtain ⟨hsent, -⟩ := (htrips ms vs _ hvs fun key _ => memberOf_map_received vs key).mpr hall
      obtain ⟨written, hsome⟩ := exists_stringifyMembers fun entry hentry => by
        rw [← memberOf_of_mem hdistinct hentry]
        exact hsent entry.1 (hshape entry.1 (List.mem_map_of_mem hentry))
      rw [hwritten] at hsome
      cases hsome
  | some written =>
      have hread := memberOf_stringifyMembers hdistinct hwritten
      rw [← htrips ms vs (ofMembers written) hvs fun key _ => (hread key).2]
      show _ ∧ (∃ b, (Schema.object shape).parse dateOf (ofJson (.obj written)) = some b ∧ _) ↔ _
      rw [ofJson]
      constructor
      · rintro ⟨-, b, hb, members, members', hmembers, rfl, hagree⟩
        obtain rfl := JsValue.obj.inj hmembers
        obtain ⟨ns, ws, hns, hws, heq⟩ := parse_object_eq_some.mp hb
        obtain rfl := Option.some.inj hns
        obtain rfl := JsValue.obj.inj heq
        exact ⟨fun key _ => (hread key).1, _, hws, hagree⟩
      · rintro ⟨-, ws, hws, hagree⟩
        exact ⟨Written.noConfusion, _, parse_object_eq_some.mpr ⟨_, ws, rfl, hws, rfl⟩, vs, ws, rfl,
          rfl, hagree⟩

end Objects

/-! ## Values that may be `null` or missing -/

/-- The value is a text, a number, a date and so on: it has a JSON of its own. -/
def isData : JsValue → Bool
  | .bool _ => true
  | .num _ => true
  | .str _ => true
  | .date (some _) => true
  | .arr _ => true
  | .obj _ => true
  | _ => false

theorem ne_null_of_isData {a : JsValue} (h : isData a = true) : a ≠ .null := by
  rintro rfl
  cases h

theorem ne_undefined_of_isData {a : JsValue} (h : isData a = true) : a ≠ .undefined := by
  rintro rfl
  cases h

theorem kept_of_isData {a : JsValue} (h : isData a = true) : stringify a ≠ .leftOut := by
  unfold isData at h
  split at h
  · simp [stringify]
  · rename_i n
    cases n <;> simp [stringify]
  · simp [stringify]
  · simp [stringify]
  · rw [stringify]
    split <;> exact Written.noConfusion
  · rw [stringify]
    split <;> exact Written.noConfusion
  · cases h

/-- Only a number is read as `null`. -/
theorem num_of_received_null {a : JsValue} (h : isData a = true)
    (hnull : (stringify a).received = .null) : ∃ n, a = .num n := by
  unfold isData at h
  split at h
  · simp [stringify, Written.received, ofJson] at hnull
  · exact ⟨_, rfl⟩
  · simp [stringify, Written.received, ofJson] at hnull
  · simp [stringify, Written.received, ofJson] at hnull
  · rw [stringify] at hnull
    split at hnull <;> simp [Written.received, ofJson] at hnull
  · rw [stringify] at hnull
    split at hnull <;> simp [Written.received, ofJson] at hnull
  · cases h

/-- What is written is not read as `undefined`. -/
theorem received_ne_undefined {a : JsValue} (hsent : stringify a ≠ .throws)
    (hkept : stringify a ≠ .leftOut) : (stringify a).received ≠ .undefined := by
  cases h : stringify a with
  | throws => exact absurd h hsent
  | leftOut => exact absurd h hkept
  | json json => cases json <;> simp [Written.received, ofJson]

section Missing

variable {parse : JsValue → Option JsValue} {agree : JsValue → JsValue → Prop}
  {survives : JsValue → Prop}

theorem parseNullable_of_ne {v : JsValue} (h : v ≠ .null) : parseNullable parse v = parse v := by
  unfold parseNullable
  split
  · exact absurd rfl h
  · rfl

theorem parseOptional_of_ne {v : JsValue} (h : v ≠ .undefined) :
    parseOptional parse v = parse v := by
  unfold parseOptional
  split
  · exact absurd rfl h
  · rfl

theorem orDefault_of_ne {default v : JsValue} (h : v ≠ .undefined) : orDefault default v = v := by
  unfold orDefault
  split
  · exact absurd rfl h
  · rfl

/-- A value that is written as `null` must not pass for one that is `null`. -/
theorem roundTrips_nullable (htrips : RoundTrips parse agree survives)
    (hdata : ∀ v a, parse v = some a → isData a = true)
    (hnull : ∀ v a, parse v = some a → (stringify a).received = .null →
      parse .null = none ∧ ¬ agree a .null) :
    RoundTrips (parseNullable parse)
      (fun a b => (a = .null ∧ b = .null) ∨ (a ≠ .null ∧ agree a b))
      fun v => v ≠ .null → survives v := by
  intro v a hparse
  by_cases hv : v = .null
  · subst hv
    obtain rfl : .null = a := Option.some.inj hparse
    refine iff_of_true ?_ fun h => absurd rfl h
    simp [stringify, Written.received, ofJson, parseNullable]
  · rw [parseNullable_of_ne hv] at hparse
    have ha := ne_null_of_isData (hdata v a hparse)
    have hagree : ∀ b, ((a = .null ∧ b = .null) ∨ (a ≠ .null ∧ agree a b)) ↔ agree a b := by
      intro b
      simp [ha]
    simp only [hagree]
    rw [imp_iff_right hv, ← htrips v a hparse]
    by_cases hreceived : (stringify a).received = .null
    · obtain ⟨hnone, hdisagree⟩ := hnull v a hparse hreceived
      rw [hreceived, hnone]
      refine iff_of_false ?_ ?_
      · rintro ⟨-, b, hb, hagrees⟩
        obtain rfl : .null = b := Option.some.inj hb
        exact hdisagree hagrees
      · rintro ⟨-, b, hb, -⟩
        cases hb
    · rw [parseNullable_of_ne hreceived]

theorem roundTrips_optional (htrips : RoundTrips parse agree survives)
    (hdata : ∀ v a, parse v = some a → isData a = true) :
    RoundTrips (parseOptional parse)
      (fun a b => (a = .undefined ∧ b = .undefined) ∨ (a ≠ .undefined ∧ agree a b))
      fun v => v ≠ .undefined → survives v := by
  intro v a hparse
  by_cases hv : v = .undefined
  · subst hv
    obtain rfl : .undefined = a := Option.some.inj hparse
    refine iff_of_true ?_ fun h => absurd rfl h
    simp [stringify, Written.received, parseOptional]
  · rw [parseOptional_of_ne hv] at hparse
    have ha := ne_undefined_of_isData (hdata v a hparse)
    have hagree : ∀ b, ((a = .undefined ∧ b = .undefined) ∨ (a ≠ .undefined ∧ agree a b)) ↔
        agree a b := by
      intro b
      simp [ha]
    simp only [hagree]
    rw [imp_iff_right hv, ← htrips v a hparse]
    refine and_congr_right fun hsent => ?_
    rw [parseOptional_of_ne (received_ne_undefined hsent (kept_of_isData (hdata v a hparse)))]

/-- What is written is no longer missing, so that the consumer has no use for the default. -/
theorem roundTrips_default (htrips : RoundTrips parse agree survives) (hkept : Kept parse)
    (default : JsValue) :
    RoundTrips (fun given => parse (orDefault default given)) agree
      fun v => survives (orDefault default v) := by
  intro v a hparse
  refine Iff.trans (and_congr_right fun hsent => ?_) (htrips (orDefault default v) a hparse)
  simp only
  rw [orDefault_of_ne (received_ne_undefined hsent (hkept _ a hparse))]

end Missing

/-! ## All schemas -/

section Schemas

variable {dateOf : JsValue → Option Int}

theorem isData_of_plain : ∀ {schema : Schema}, schema.plain = true → ∀ v a,
    schema.parse dateOf v = some a → isData a = true
  | .string _, _, v, a, h => by
      obtain ⟨s, -, -, rfl⟩ := parseString_eq_some.mp h
      rfl
  | .number _, _, v, a, h => by
      obtain ⟨n, -, -, rfl⟩ := parseNumber_eq_some.mp h
      rfl
  | .boolean, _, v, a, h => by
      obtain ⟨b, -, rfl⟩ := parseBoolean_eq_some.mp h
      rfl
  | .coerceDate, _, v, a, h => by
      obtain ⟨t, rfl, -⟩ := parseDate_eq_some h
      rfl
  | .array _ _, _, v, a, h => by
      obtain ⟨items, parsed, -, -, -, rfl⟩ := parseArray_eq_some.mp h
      rfl
  | .record _, _, v, a, h => by
      obtain ⟨members, entries, -, -, rfl⟩ := parseRecord_eq_some.mp h
      rfl
  | .object _, _, v, a, h => by
      obtain ⟨ms, vs, -, -, rfl⟩ := parse_object_eq_some.mp h
      rfl

/-- Where a plain value is read as `null` it is refused. -/
theorem refused_null {schema : Schema} (hplain : schema.plain = true) {v a : JsValue}
    (hparse : schema.parse dateOf v = some a) (hnull : (stringify a).received = .null) :
    schema.parse dateOf .null = none ∧ ¬ schema.Agrees a .null := by
  obtain ⟨n, rfl⟩ := num_of_received_null (isData_of_plain hplain v a hparse) hnull
  cases schema with
  | number check => exact ⟨rfl, JsValue.noConfusion⟩
  | string check =>
      obtain ⟨s, -, -, hs⟩ := parseString_eq_some.mp hparse
      cases hs
  | boolean =>
      obtain ⟨b, -, hb⟩ := parseBoolean_eq_some.mp hparse
      cases hb
  | coerceDate =>
      obtain ⟨t, ht, -⟩ := parseDate_eq_some hparse
      cases ht
  | array element length =>
      obtain ⟨items, parsed, -, -, -, hitems⟩ := parseArray_eq_some.mp hparse
      cases hitems
  | record value =>
      obtain ⟨members, entries, -, -, hmembers⟩ := parseRecord_eq_some.mp hparse
      cases hmembers
  | object shape =>
      obtain ⟨ms, vs, -, -, hvs⟩ := parse_object_eq_some.mp hparse
      cases hvs
  | unknownRecord orEmpty => cases hplain
  | nullable inner => cases hplain
  | optional inner => cases hplain
  | default value inner => cases hplain

theorem kept_of_plain {schema : Schema} (hplain : schema.plain = true) :
    Kept (schema.parse dateOf) :=
  fun v a hparse => kept_of_isData (isData_of_plain hplain v a hparse)

theorem plain_of_solid {schema : Schema} (hsolid : schema.solid = true) :
    schema.plain = true ∨ ∃ inner, schema = .nullable inner := by
  cases schema with
  | nullable inner => exact .inr ⟨inner, rfl⟩
  | _ => exact .inl hsolid

theorem kept_of_solid {schema : Schema} (hsolid : schema.solid = true)
    (hformed : schema.wellFormed = true) : Kept (schema.parse dateOf) := by
  obtain hplain | ⟨inner, rfl⟩ := plain_of_solid hsolid
  · exact kept_of_plain hplain
  · rw [Schema.wellFormed, Bool.and_eq_true] at hformed
    intro v a hparse
    by_cases hv : v = .null
    · subst hv
      obtain rfl : .null = a := Option.some.inj hparse
      simp [stringify]
    · have hinner : parseNullable (inner.parse dateOf) v = some a := hparse
      rw [parseNullable_of_ne hv] at hinner
      exact kept_of_plain hformed.1 v a hinner

mutual

/-- **The consumer of a value gets what agrees with the producer's precisely if the value
survives.** -/
theorem Schema.roundTrips : ∀ (schema : Schema), schema.wellFormed = true →
    RoundTrips (schema.parse dateOf) schema.Agrees schema.Survives
  | .string check, _ => roundTrips_string check
  | .number check, _ => roundTrips_number check
  | .boolean, _ => roundTrips_boolean
  | .coerceDate, _ => roundTrips_date dateOf
  | .array element length, h => by
      rw [Schema.wellFormed, Bool.and_eq_true] at h
      exact roundTrips_array (Schema.roundTrips element h.2) (kept_of_plain h.1) length
  | .record value, h => by
      rw [Schema.wellFormed, Bool.and_eq_true] at h
      exact roundTrips_record (Schema.roundTrips value h.2) (kept_of_plain h.1)
  | .unknownRecord orEmpty, _ => roundTrips_unknownRecord orEmpty
  | .object shape, h => by
      rw [Schema.wellFormed, Bool.and_eq_true, decide_eq_true_eq] at h
      exact roundTrips_object (Shape.roundTrips shape h.2 h.1) h.1
  | .nullable inner, h => by
      rw [Schema.wellFormed, Bool.and_eq_true] at h
      exact roundTrips_nullable (Schema.roundTrips inner h.2) (isData_of_plain h.1)
        fun v a hparse hnull => refused_null h.1 hparse hnull
  | .optional inner, h => by
      rw [Schema.wellFormed, Bool.and_eq_true] at h
      exact roundTrips_optional (Schema.roundTrips inner h.2) (isData_of_plain h.1)
  | .default value inner, h => by
      rw [Schema.wellFormed, Bool.and_eq_true] at h
      exact roundTrips_default (Schema.roundTrips inner h.2) (kept_of_solid h.1 h.2) value

theorem Shape.roundTrips : ∀ (shape : Shape), shape.wellFormed = true → shape.keys.Nodup →
    shape.Trips dateOf
  | .nil, _, _ => Shape.trips_nil
  | .cons key schema rest, h, hnodup => by
      rw [Shape.wellFormed, Bool.and_eq_true] at h
      have hrest : rest.keys.Nodup := (List.nodup_cons.mp hnodup).2
      exact Shape.trips_cons (Schema.roundTrips schema h.1) (Shape.roundTrips rest h.2 hrest) hnodup

end

end Schemas

end Zod
end Foundation
end Ctem
