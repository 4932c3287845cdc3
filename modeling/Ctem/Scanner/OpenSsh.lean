import Mathlib.Tactic.Tauto
import Ctem.Foundation.InetText
import Ctem.Foundation.JsCoercion

/-!
# Open SSH

The check for security groups that admit SSH from everywhere.

* `isOpenSsh` is the check on a resource, for the shapes of Terraform and CloudFormation.
* `IngressRule` is a rule and `IngressRule.AdmitsSsh` what it admits; `SgShape` writes it as one
  of the shapes has it.
* `isOpenSsh_iff` says which rules the check gets right.
-/

namespace Ctem
namespace Scanner

open Foundation

/-! ## The check -/

inductive IacKind where
  | terraform | cloudformation | kubernetes | helm | dockerfile
deriving DecidableEq, Repr

/-- What the check reads of an `EvaluableResource`. -/
structure SgResource where
  kind : IacKind
  type : String
  attributes : JsonObject

/-- `asList`; a missing value and `null` are no list. -/
def asList : Option Json → List Json
  | none => []
  | some .null => []
  | some (.arr items) => items
  | some value => [value]

def isOpenCidr : Json → Bool
  | .str cidr => cidr == "0.0.0.0/0" || cidr == "::/0"
  | _ => false

def cidrIsOpen (value : Option Json) : Bool := (asList value).any isOpenCidr

section Check

-- `Number.prototype.toString`
variable (numberText : Rat → String)

/-- `String(rec.protocol ?? rec.IpProtocol ?? 'tcp').toLowerCase()`; no character beyond ASCII
has one of the letters of `tcp` in lower case. -/
def protocolText (rec : JsonObject) : String :=
  asciiLower (stringOf numberText
    ((coalesce (rec.get? "protocol") (rec.get? "IpProtocol")).getD (.str "tcp")))

def portIncludesSsh (rec : JsonObject) : Bool :=
  if protocolText numberText rec ≠ "tcp" ∧ protocolText numberText rec ≠ "-1" ∧
      protocolText numberText rec ≠ "6" then false
  else
    let first := numberOf numberText
      ((coalesce (rec.get? "from_port") (rec.get? "FromPort")).getD (.num 0))
    let last :=
      match coalesce (coalesce (rec.get? "to_port") (rec.get? "ToPort")) none with
      | some value => numberOf numberText value
      | none => first
    match first, last with
    | some first, some last => first.le (.finite 22) && (JsNumber.finite 22).le last
    | _, _ => false

/-- `!block || typeof block !== 'object'` is false. -/
def isObject : Json → Bool
  | .obj _ => true
  | .arr _ => true
  | _ => false

def ingressOpensSsh (block : Json) : Bool :=
  if isObject block then
    let cidrs := (asList (block.get? "cidr_blocks")).map some ++
      (asList (block.get? "ipv6_cidr_blocks")).map some ++
      [block.get? "cidr_block", block.get? "cidr_ipv4"]
    if cidrs.any cidrIsOpen then portIncludesSsh numberText block.fields else false
  else false

/-- The member of an object; `undefined` is none. -/
def member (key : String) (value : Option Json) : JsonObject :=
  value.toList.map fun v => (key, v)

def cfnIngressOpensSsh (block : Json) : Bool :=
  if isObject block then
    if cidrIsOpen (coalesce (block.get? "CidrIp") (block.get? "CidrIpv6")) then
      portIncludesSsh numberText
        (member "from_port" (block.get? "FromPort") ++ member "to_port" (block.get? "ToPort") ++
          member "protocol" (block.get? "IpProtocol"))
    else false
  else false

def isOpenSsh (resource : SgResource) : Bool :=
  match resource.kind with
  | .terraform =>
      if resource.type = "aws_security_group" then
        (asList (resource.attributes.get? "ingress")).any (ingressOpensSsh numberText)
      else if resource.type = "aws_security_group_rule" then
        stringOf numberText ((coalesce (resource.attributes.get? "type") none).getD (.str "")) ==
            "ingress" &&
          ingressOpensSsh numberText (.obj resource.attributes)
      else if resource.type = "aws_vpc_security_group_ingress_rule" then
        cidrIsOpen (coalesce (resource.attributes.get? "cidr_ipv4")
            (resource.attributes.get? "cidr_ipv6")) &&
          portIncludesSsh numberText resource.attributes
      else false
  | .cloudformation =>
      if resource.type = "AWS::EC2::SecurityGroup" then
        (asList (resource.attributes.get? "SecurityGroupIngress")).any
          (cfnIngressOpensSsh numberText)
      else if resource.type = "AWS::EC2::SecurityGroupIngress" then
        cfnIngressOpensSsh numberText (.obj resource.attributes)
      else false
  | _ => false

end Check

/-! ## Rules -/

/-- How a protocol is written. -/
inductive IpProtocol where
  | text (name : String)
  | number (n : Int) (range : -1 ≤ n ∧ n ≤ 255)

/-- How a port is written. -/
inductive PortSpelling where
  | number (n : Int)
  | digits (n : Nat)

namespace IpProtocol

def json : IpProtocol → Json
  | .text name => .str name
  | .number n _ => .num n

/-- Every port of every protocol. -/
def All : IpProtocol → Prop
  | .text name => asciiLower name = "-1"
  | .number n _ => n = -1

/-- TCP, by its name in any case or by its number. -/
def Tcp : IpProtocol → Prop
  | .text name => asciiLower name = "tcp" ∨ asciiLower name = "6"
  | .number n _ => n = 6

end IpProtocol

namespace PortSpelling

def value : PortSpelling → Int
  | .number n => n
  | .digits n => n

def json : PortSpelling → Json
  | .number n => .num n
  | .digits n => .str (String.ofList (Nat.toDigits 10 n))

end PortSpelling

/-- An ingress rule.  A rule for TCP has both ports. -/
structure IngressRule where
  protocol : IpProtocol
  first : Option PortSpelling
  last : Option PortSpelling
  ipv4 : List String
  ipv6 : List String
  ranged : protocol.Tcp → first ≠ none ∧ last ≠ none

namespace IngressRule

variable (rule : IngressRule)

/-- The rule is for everyone. -/
def Open : Prop :=
  ∃ cidr ∈ rule.ipv4 ++ rule.ipv6, cidr = "0.0.0.0/0" ∨ cidr = "::/0"

/-- The rule is for TCP port 22, among others. -/
def AdmitsPort : Prop :=
  rule.protocol.All ∨ rule.protocol.Tcp ∧ ∃ first last, rule.first = some first ∧
    rule.last = some last ∧ first.value ≤ 22 ∧ 22 ≤ last.value

def AdmitsSsh : Prop := rule.Open ∧ rule.AdmitsPort

end IngressRule

/-! ## Shapes -/

/-- Where a rule may stand. -/
inductive SgShape where
  | ingressBlock | ruleResource | vpcIngressRule | cfnInline | cfnIngress
deriving DecidableEq, Repr

namespace SgShape

/-- The shapes that have one range of each family at most. -/
def Single : SgShape → Prop
  | .ingressBlock => False
  | .ruleResource => False
  | _ => True

/-- What the shape can say. -/
def Allows (shape : SgShape) (rule : IngressRule) : Prop :=
  shape.Single → rule.ipv4.length ≤ 1 ∧ rule.ipv6.length ≤ 1

def cidrs (texts : List String) : Json := .arr (texts.map .str)

/-- A rule in the attributes of its block or resource. -/
def attributes (shape : SgShape) (rule : IngressRule) : JsonObject :=
  match shape with
  | .ingressBlock | .ruleResource =>
      member "type" (if shape = .ruleResource then some (.str "ingress") else none) ++
        member "from_port" (rule.first.map PortSpelling.json) ++
        member "to_port" (rule.last.map PortSpelling.json) ++
        [("protocol", rule.protocol.json), ("cidr_blocks", cidrs rule.ipv4),
          ("ipv6_cidr_blocks", cidrs rule.ipv6)]
  | .vpcIngressRule =>
      member "from_port" (rule.first.map PortSpelling.json) ++
        member "to_port" (rule.last.map PortSpelling.json) ++
        [("ip_protocol", rule.protocol.json)] ++
        member "cidr_ipv4" (rule.ipv4.head?.map Json.str) ++
        member "cidr_ipv6" (rule.ipv6.head?.map Json.str)
  | .cfnInline | .cfnIngress =>
      member "FromPort" (rule.first.map PortSpelling.json) ++
        member "ToPort" (rule.last.map PortSpelling.json) ++
        [("IpProtocol", rule.protocol.json)] ++ member "CidrIp" (rule.ipv4.head?.map Json.str) ++
        member "CidrIpv6" (rule.ipv6.head?.map Json.str)

/-- The attributes the check reads, and those that say the protocol or a range. -/
def ruleKeys : List String :=
  ["type", "from_port", "to_port", "protocol", "ip_protocol", "cidr_blocks", "ipv6_cidr_blocks",
    "cidr_block", "cidr_ipv4", "cidr_ipv6", "FromPort", "ToPort", "IpProtocol", "CidrIp",
    "CidrIpv6"]

/-- A resource with the rule; `others` are attributes that do not belong to the rule. -/
def resource (shape : SgShape) (rule : IngressRule) (others : JsonObject) : SgResource :=
  let attributes := shape.attributes rule ++ others
  match shape with
  | .ingressBlock =>
      { kind := .terraform, type := "aws_security_group"
        attributes := [("ingress", .arr [.obj attributes])] }
  | .ruleResource =>
      { kind := .terraform, type := "aws_security_group_rule", attributes := attributes }
  | .vpcIngressRule =>
      { kind := .terraform, type := "aws_vpc_security_group_ingress_rule"
        attributes := attributes }
  | .cfnInline =>
      { kind := .cloudformation, type := "AWS::EC2::SecurityGroup"
        attributes := [("SecurityGroupIngress", .arr [.obj attributes])] }
  | .cfnIngress =>
      { kind := .cloudformation, type := "AWS::EC2::SecurityGroupIngress"
        attributes := attributes }

end SgShape

/-! ## What is read -/

namespace IngressRule

variable (rule : IngressRule)

/-- Port 22 is in the range, where a port that is missing counts as zero or as the first. -/
def PortRead : Prop :=
  ((rule.first.map PortSpelling.value).getD 0) ≤ 22 ∧
    22 ≤ (rule.last.map PortSpelling.value).getD ((rule.first.map PortSpelling.value).getD 0)

/-- An IPv4 range hides the IPv6 range. -/
def Hidden : Prop :=
  ∃ cidr ∈ rule.ipv4.head?, ¬ (cidr = "0.0.0.0/0" ∨ cidr = "::/0")

end IngressRule

/-- The rule is read as it is meant: every rule it admits by is seen, and for a shape whose
protocol is not looked at, no other protocol has port 22 in its range. -/
def SgShape.ReadsAsMeant (shape : SgShape) (rule : IngressRule) : Prop :=
  (rule.AdmitsSsh → ¬ (shape.Single ∧ rule.Hidden) ∧ (rule.protocol.All → rule.PortRead)) ∧
    (shape = .vpcIngressRule → rule.Open → ¬ rule.Hidden → rule.PortRead → rule.AdmitsPort)

section Read

variable {numberText : Rat → String}
variable (hnumber : ∀ n : Int, -1 ≤ n → n ≤ 255 → numberText (n : Rat) = toString n)

@[simp] theorem get?_member (key : String) (value : Option Json) (k : String) :
    (member key value).get? k = if key = k then value else none := by
  cases value with
  | none => simp [member]
  | some v => simp [member, JsonObject.get?_cons]

/-- Attributes of others are not read. -/
theorem get?_append_others {base others : JsonObject}
    (hothers : ∀ f ∈ others, f.1 ∉ SgShape.ruleKeys) {k : String} (hk : k ∈ SgShape.ruleKeys) :
    (base ++ others).get? k = base.get? k := by
  have hnone : others.get? k = none := by
    induction others with
    | nil => rfl
    | cons f rest ih =>
        have hne : f.1 ≠ k := fun heq => hothers f List.mem_cons_self (heq ▸ hk)
        rw [JsonObject.get?_cons, ih fun g hg => hothers g (List.mem_cons_of_mem f hg), if_neg hne]
        rfl
  rw [JsonObject.get?_append, hnone, Option.none_or]

/-- The lists of ranges. -/
theorem any_isOpenCidr (texts : List String) :
    (texts.map Json.str).any isOpenCidr = true ↔
      ∃ cidr ∈ texts, cidr = "0.0.0.0/0" ∨ cidr = "::/0" := by
  rw [List.any_map, List.any_eq_true]
  simp only [Function.comp_apply, isOpenCidr, Bool.or_eq_true, beq_iff_eq]

/-- The first of two ranges that is given. -/
theorem cidrIsOpen_coalesce (first second : Option String) :
    cidrIsOpen (coalesce (first.map Json.str) (second.map Json.str)) = true ↔
      ∃ cidr ∈ first.or second, cidr = "0.0.0.0/0" ∨ cidr = "::/0" := by
  have hone : ∀ cidr : String, cidrIsOpen (some (.str cidr)) = true ↔
      (cidr = "0.0.0.0/0" ∨ cidr = "::/0") := by
    intro cidr
    simp only [cidrIsOpen, asList, List.any_cons, List.any_nil, Bool.or_false, isOpenCidr,
      Bool.or_eq_true, beq_iff_eq]
  cases first with
  | some cidr => simpa [coalesce] using hone cidr
  | none =>
      cases second with
      | some cidr => simpa [coalesce] using hone cidr
      | none => simp [coalesce, cidrIsOpen, asList]

/-- A port is read as its value. -/
theorem numberOf_port (port : PortSpelling) :
    numberOf numberText port.json = some (.finite (port.value : Rat)) := by
  cases port with
  | number n => rfl
  | digits n =>
      change numberOfText (String.ofList (Nat.toDigits 10 n)) = _
      rw [numberOfText_toDigits]
      rfl

theorem le_port (n m : Int) : (JsNumber.finite n).le (.finite m) = decide (n ≤ m) := by
  have hle : (n : Rat) ≤ (m : Rat) ↔ n ≤ m := Rat.intCast_le_intCast
  unfold JsNumber.le
  simp only [hle]

/-- The ports of a rule, where the protocol has them looked at. -/
theorem portIncludesSsh_iff {rule : IngressRule} {rec : JsonObject}
    (hfirst : coalesce (rec.get? "from_port") (rec.get? "FromPort") =
      rule.first.map PortSpelling.json)
    (hlast : coalesce (rec.get? "to_port") (rec.get? "ToPort") = rule.last.map PortSpelling.json) :
    portIncludesSsh numberText rec = true ↔
      (protocolText numberText rec = "tcp" ∨ protocolText numberText rec = "-1" ∨
        protocolText numberText rec = "6") ∧ rule.PortRead := by
  have hfirst' : numberOf numberText ((rule.first.map PortSpelling.json).getD (.num 0)) =
      some (.finite (((rule.first.map PortSpelling.value).getD 0 : Int) : Rat)) := by
    cases rule.first with
    | none => rfl
    | some port => exact numberOf_port port
  have hgiven : coalesce (rule.last.map PortSpelling.json) none =
      rule.last.map PortSpelling.json := by
    cases rule.last with
    | none => rfl
    | some port => cases port <;> rfl
  have hlow : ∀ n : Int, (JsNumber.finite n).le (.finite 22) = decide (n ≤ 22) :=
    fun n => le_port n 22
  have hhigh : ∀ n : Int, (JsNumber.finite 22).le (.finite n) = decide (22 ≤ n) := le_port 22
  rw [portIncludesSsh, hfirst, hlast, hfirst', hgiven]
  by_cases hprotocol : protocolText numberText rec ≠ "tcp" ∧ protocolText numberText rec ≠ "-1" ∧
      protocolText numberText rec ≠ "6"
  · rw [if_pos hprotocol]
    refine iff_of_false Bool.false_ne_true ?_
    rintro ⟨hname | hname | hname, -⟩
    · exact hprotocol.1 hname
    · exact hprotocol.2.1 hname
    · exact hprotocol.2.2 hname
  · have hread : protocolText numberText rec = "tcp" ∨ protocolText numberText rec = "-1" ∨
        protocolText numberText rec = "6" := by
      by_contra hother
      rw [not_or, not_or] at hother
      exact hprotocol hother
    rw [if_neg hprotocol, IngressRule.PortRead]
    cases rule.last with
    | none =>
        simp only [Option.map_none, Option.getD_none, hlow, hhigh, Bool.and_eq_true,
          decide_eq_true_eq, hread, true_and]
    | some port =>
        simp only [Option.map_some, Option.getD_some, numberOf_port, hlow, hhigh,
          Bool.and_eq_true, decide_eq_true_eq, hread, true_and]

/-- The text of a protocol number. -/
theorem asciiLower_number {n : Int} (hn : -1 ≤ n) :
    (asciiLower (toString n) = "-1" ↔ n = -1) ∧
      (asciiLower (toString n) = "tcp" ∨ asciiLower (toString n) = "6" ↔ n = 6) := by
  by_cases hall : n = -1
  · subst hall
    decide
  obtain ⟨m, rfl⟩ := Int.eq_ofNat_of_zero_le (show 0 ≤ n by omega)
  have hdigit : ∀ c ∈ Nat.toDigits 10 m, c.isDigit = true := fun c hc =>
    Nat.isDigit_of_mem_toDigits (by decide) (by decide) hc
  have hlower : asciiLower (toString (m : Int)) = String.ofList (Nat.toDigits 10 m) := by
    change String.ofList ((Nat.repr m).toList.map Char.toLower) = _
    rw [Nat.toList_repr, List.map_congr_left fun c hc =>
      Inet6.toLower_of_isDigit (Or.inl (hdigit c hc)), List.map_id']
  have hword : ∀ (c : Char) (cs : List Char), c.isDigit = false →
      String.ofList (Nat.toDigits 10 m) ≠ String.ofList (c :: cs) := by
    intro c cs hc heq
    rw [hdigit c (String.ofList_inj.mp heq ▸ List.mem_cons_self)] at hc
    cases hc
  have hsix : String.ofList (Nat.toDigits 10 m) = "6" ↔ (m : Int) = 6 := by
    constructor
    · intro heq
      have hvalue := digitsValue_toDigits m
      rw [String.ofList_inj.mp (heq : _ = String.ofList ['6'])] at hvalue
      exact congrArg Int.ofNat hvalue.symm
    · intro heq
      obtain rfl : m = 6 := by omega
      rfl
  rw [hlower, hsix]
  exact ⟨iff_of_false (hword '-' ['1'] rfl) hall,
    or_iff_right (hword 't' ['c', 'p'] rfl)⟩

include hnumber in
/-- A protocol is told by its text. -/
theorem protocolText_json {protocol : IpProtocol} {rec : JsonObject}
    (hrec : coalesce (rec.get? "protocol") (rec.get? "IpProtocol") = some protocol.json) :
    (protocolText numberText rec = "-1" ↔ protocol.All) ∧
      (protocolText numberText rec = "tcp" ∨ protocolText numberText rec = "6" ↔
        protocol.Tcp) := by
  rw [protocolText, hrec, Option.getD_some]
  cases protocol with
  | text name => exact ⟨Iff.rfl, Iff.rfl⟩
  | number n range =>
      change (asciiLower (numberText (n : Rat)) = "-1" ↔ n = -1) ∧
        (asciiLower (numberText (n : Rat)) = "tcp" ∨ asciiLower (numberText (n : Rat)) = "6" ↔
          n = 6)
      rw [hnumber n range.1 range.2]
      exact asciiLower_number range.1

/-- What a rule for port 22 has in common with the check. -/
theorem admitsPort_iff (rule : IngressRule) :
    rule.AdmitsPort ↔ rule.protocol.All ∨ rule.protocol.Tcp ∧ rule.PortRead := by
  refine or_congr_right (and_congr_right fun htcp => ?_)
  obtain ⟨hfirst, hlast⟩ := rule.ranged htcp
  obtain ⟨first, hfirst⟩ := Option.ne_none_iff_exists'.mp hfirst
  obtain ⟨last, hlast⟩ := Option.ne_none_iff_exists'.mp hlast
  unfold IngressRule.PortRead
  rw [hfirst, hlast]
  constructor
  · rintro ⟨_, _, hfirst', hlast', hports⟩
    obtain rfl := Option.some.inj hfirst'
    obtain rfl := Option.some.inj hlast'
    exact hports
  · exact fun hports => ⟨first, last, rfl, rfl, hports⟩

/-- The range that is seen of one in each family. -/
theorem seen_iff {rule : IngressRule} (hsingle : rule.ipv4.length ≤ 1 ∧ rule.ipv6.length ≤ 1) :
    (∃ cidr ∈ rule.ipv4.head?.or rule.ipv6.head?, cidr = "0.0.0.0/0" ∨ cidr = "::/0") ↔
      rule.Open ∧ ¬ rule.Hidden := by
  unfold IngressRule.Open IngressRule.Hidden
  obtain ⟨hipv4, hipv6⟩ := hsingle
  cases h4 : rule.ipv4 with
  | nil =>
      cases h6 : rule.ipv6 with
      | nil => simp
      | cons cidr rest =>
          rw [h6, List.length_cons] at hipv6
          obtain rfl := List.length_eq_zero_iff.mp (Nat.le_zero.mp (Nat.le_of_succ_le_succ hipv6))
          simp
  | cons cidr rest =>
      rw [h4, List.length_cons] at hipv4
      obtain rfl := List.length_eq_zero_iff.mp (Nat.le_zero.mp (Nat.le_of_succ_le_succ hipv4))
      simp only [List.head?_cons, Option.some_or, Option.mem_some_iff, exists_eq_left',
        List.singleton_append, List.mem_cons, exists_eq_or_imp, not_not]
      constructor
      · exact fun hopen => ⟨Or.inl hopen, hopen⟩
      · exact fun hopen => hopen.2

theorem coalesce_none_right (ports : Option PortSpelling) :
    coalesce (ports.map PortSpelling.json) none = ports.map PortSpelling.json := by
  cases ports with
  | none => rfl
  | some port => cases port <;> rfl

theorem coalesce_protocol (protocol : IpProtocol) (behind : Option Json) :
    coalesce (some protocol.json) behind = some protocol.json := by
  cases protocol <;> rfl

variable {others : JsonObject} (hothers : ∀ f ∈ others, f.1 ∉ SgShape.ruleKeys)
include hothers

/-- The members of a rule with lists of ranges. -/
theorem get?_lists {shape : SgShape} (hshape : ¬ shape.Single) (rule : IngressRule) {k : String}
    (hk : k ∈ SgShape.ruleKeys) (htype : k ≠ "type") :
    (shape.attributes rule ++ others).get? k =
      if k = "from_port" then rule.first.map PortSpelling.json
      else if k = "to_port" then rule.last.map PortSpelling.json
      else if k = "protocol" then some rule.protocol.json
      else if k = "cidr_blocks" then some (SgShape.cidrs rule.ipv4)
      else if k = "ipv6_cidr_blocks" then some (SgShape.cidrs rule.ipv6)
      else none := by
  rw [get?_append_others hothers hk]
  simp only [SgShape.ruleKeys, List.mem_cons, List.not_mem_nil, or_false] at hk
  have hlists : ∀ type : Option Json, JsonObject.get? (member "type" type ++
      member "from_port" (rule.first.map PortSpelling.json) ++
      member "to_port" (rule.last.map PortSpelling.json) ++
      [("protocol", rule.protocol.json), ("cidr_blocks", SgShape.cidrs rule.ipv4),
        ("ipv6_cidr_blocks", SgShape.cidrs rule.ipv6)]) k =
      if k = "from_port" then rule.first.map PortSpelling.json
      else if k = "to_port" then rule.last.map PortSpelling.json
      else if k = "protocol" then some rule.protocol.json
      else if k = "cidr_blocks" then some (SgShape.cidrs rule.ipv4)
      else if k = "ipv6_cidr_blocks" then some (SgShape.cidrs rule.ipv6)
      else none := by
    intro type
    rcases hk with rfl | rfl | rfl | rfl | rfl | rfl | rfl | rfl | rfl | rfl | rfl | rfl | rfl |
      rfl | rfl
    · exact absurd rfl htype
    all_goals simp [JsonObject.get?_append, JsonObject.get?_cons]
  cases shape with
  | ingressBlock => exact hlists none
  | ruleResource => exact hlists (some (.str "ingress"))
  | vpcIngressRule => exact absurd trivial hshape
  | cfnInline => exact absurd trivial hshape
  | cfnIngress => exact absurd trivial hshape

include hnumber in
/-- A rule with lists of ranges. -/
theorem ingressOpensSsh_iff {shape : SgShape} (hshape : ¬ shape.Single) (rule : IngressRule) :
    ingressOpensSsh numberText (.obj (shape.attributes rule ++ others)) = true ↔
      rule.Open ∧ (rule.protocol.All ∨ rule.protocol.Tcp) ∧ rule.PortRead := by
  generalize hrec : shape.attributes rule ++ others = rec
  have hget : ∀ k ∈ SgShape.ruleKeys, k ≠ "type" → rec.get? k = _ := fun k hk htype =>
    hrec ▸ @get?_lists others hothers shape hshape rule k hk htype
  have hblock : ∀ k, (Json.obj rec).get? k = rec.get? k := fun _ => rfl
  have hcidrs : ∀ texts : List String,
      ((asList (some (SgShape.cidrs texts))).map some).any cidrIsOpen =
        (texts.map Json.str).any isOpenCidr := by
    intro texts
    rw [SgShape.cidrs, asList, List.any_map, List.any_map, List.any_map]
    congr 1
    funext cidr
    exact List.any_cons.trans (Bool.or_false _)
  have hopen : ((asList (rec.get? "cidr_blocks")).map some ++
      (asList (rec.get? "ipv6_cidr_blocks")).map some ++
      [rec.get? "cidr_block", rec.get? "cidr_ipv4"]).any cidrIsOpen = true ↔ rule.Open := by
    have h4 : rec.get? "cidr_blocks" = some (SgShape.cidrs rule.ipv4) := by
      rw [hget _ (by decide) (by decide)]
      simp
    have h6 : rec.get? "ipv6_cidr_blocks" = some (SgShape.cidrs rule.ipv6) := by
      rw [hget _ (by decide) (by decide)]
      simp
    have hother : rec.get? "cidr_block" = none ∧ rec.get? "cidr_ipv4" = none := by
      rw [hget _ (by decide) (by decide), hget _ (by decide) (by decide)]
      simp
    rw [h4, h6, hother.1, hother.2, List.any_append, List.any_append, hcidrs, hcidrs,
      ← List.any_append, ← List.map_append, Bool.or_eq_true, any_isOpenCidr]
    exact or_iff_left Bool.false_ne_true
  have hports : portIncludesSsh numberText rec = true ↔
      (rule.protocol.All ∨ rule.protocol.Tcp) ∧ rule.PortRead := by
    have hfirst : coalesce (rec.get? "from_port") (rec.get? "FromPort") =
        rule.first.map PortSpelling.json := by
      rw [hget _ (by decide) (by decide), hget _ (by decide) (by decide)]
      simp [coalesce_none_right]
    have hlast : coalesce (rec.get? "to_port") (rec.get? "ToPort") =
        rule.last.map PortSpelling.json := by
      rw [hget _ (by decide) (by decide), hget _ (by decide) (by decide)]
      simp [coalesce_none_right]
    have hprotocol : coalesce (rec.get? "protocol") (rec.get? "IpProtocol") =
        some rule.protocol.json := by
      rw [hget _ (by decide) (by decide), hget _ (by decide) (by decide)]
      simp [coalesce_protocol]
    obtain ⟨hall, htcp⟩ := protocolText_json hnumber hprotocol
    rw [portIncludesSsh_iff hfirst hlast, ← hall, ← htcp]
    exact and_congr_left fun _ => or_left_comm
  rw [ingressOpensSsh, isObject, if_pos rfl]
  simp only [hblock, Json.fields]
  split
  · rename_i hseen
    rw [hports]
    exact (and_iff_right (hopen.mp hseen)).symm
  · rename_i hseen
    exact iff_of_false Bool.false_ne_true fun h => hseen (hopen.mpr h.1)

/-- A rule with a resource of its own, whose protocol is not looked at. -/
theorem vpcIngressRule_iff (rule : IngressRule) :
    isOpenSsh numberText (SgShape.vpcIngressRule.resource rule others) = true ↔
      (∃ cidr ∈ rule.ipv4.head?.or rule.ipv6.head?, cidr = "0.0.0.0/0" ∨ cidr = "::/0") ∧
        rule.PortRead := by
  have hget : ∀ k ∈ SgShape.ruleKeys,
      (SgShape.vpcIngressRule.attributes rule ++ others).get? k =
        (SgShape.vpcIngressRule.attributes rule).get? k := fun k hk => get?_append_others hothers hk
  have hcheck : isOpenSsh numberText (SgShape.vpcIngressRule.resource rule others) =
      (cidrIsOpen (coalesce
          ((SgShape.vpcIngressRule.attributes rule ++ others).get? "cidr_ipv4")
          ((SgShape.vpcIngressRule.attributes rule ++ others).get? "cidr_ipv6")) &&
        portIncludesSsh numberText (SgShape.vpcIngressRule.attributes rule ++ others)) := rfl
  rw [hcheck]
  generalize SgShape.vpcIngressRule.attributes rule ++ others = rec at hget
  have h4 : rec.get? "cidr_ipv4" = rule.ipv4.head?.map Json.str := by
    rw [hget _ (by decide)]
    simp [SgShape.attributes, JsonObject.get?_append, JsonObject.get?_cons]
  have h6 : rec.get? "cidr_ipv6" = rule.ipv6.head?.map Json.str := by
    rw [hget _ (by decide)]
    simp [SgShape.attributes, JsonObject.get?_append, JsonObject.get?_cons]
  have hfirst : coalesce (rec.get? "from_port") (rec.get? "FromPort") =
      rule.first.map PortSpelling.json := by
    rw [hget _ (by decide), hget _ (by decide)]
    simp [SgShape.attributes, JsonObject.get?_append, JsonObject.get?_cons, coalesce_none_right]
  have hlast : coalesce (rec.get? "to_port") (rec.get? "ToPort") =
      rule.last.map PortSpelling.json := by
    rw [hget _ (by decide), hget _ (by decide)]
    simp [SgShape.attributes, JsonObject.get?_append, JsonObject.get?_cons, coalesce_none_right]
  have htcp : protocolText numberText rec = "tcp" := by
    have hnone : rec.get? "protocol" = none ∧ rec.get? "IpProtocol" = none := by
      rw [hget _ (by decide), hget _ (by decide)]
      simp [SgShape.attributes, JsonObject.get?_append, JsonObject.get?_cons]
    rw [protocolText, hnone.1, hnone.2]
    show asciiLower "tcp" = "tcp"
    decide
  rw [Bool.and_eq_true, h4, h6, cidrIsOpen_coalesce, portIncludesSsh_iff hfirst hlast, htcp]
  exact and_congr_right fun _ => and_iff_right (Or.inl rfl)

include hnumber in
/-- A rule in CloudFormation. -/
theorem cfnIngressOpensSsh_iff {shape : SgShape} (hshape : shape = .cfnInline ∨ shape = .cfnIngress)
    (rule : IngressRule) :
    cfnIngressOpensSsh numberText (.obj (shape.attributes rule ++ others)) = true ↔
      (∃ cidr ∈ rule.ipv4.head?.or rule.ipv6.head?, cidr = "0.0.0.0/0" ∨ cidr = "::/0") ∧
        (rule.protocol.All ∨ rule.protocol.Tcp) ∧ rule.PortRead := by
  have hsame : shape.attributes rule = SgShape.cfnInline.attributes rule := by
    rcases hshape with rfl | rfl <;> rfl
  have hget : ∀ k ∈ SgShape.ruleKeys,
      (Json.obj (SgShape.cfnInline.attributes rule ++ others)).get? k =
        (SgShape.cfnInline.attributes rule).get? k := fun k hk => get?_append_others hothers hk
  rw [hsame, cfnIngressOpensSsh, isObject, if_pos rfl]
  generalize Json.obj (SgShape.cfnInline.attributes rule ++ others) = block at hget
  have h4 : block.get? "CidrIp" = rule.ipv4.head?.map Json.str := by
    rw [hget _ (by decide)]
    simp [SgShape.attributes, JsonObject.get?_append, JsonObject.get?_cons]
  have h6 : block.get? "CidrIpv6" = rule.ipv6.head?.map Json.str := by
    rw [hget _ (by decide)]
    simp [SgShape.attributes, JsonObject.get?_append, JsonObject.get?_cons]
  have hfirst : block.get? "FromPort" = rule.first.map PortSpelling.json := by
    rw [hget _ (by decide)]
    simp [SgShape.attributes, JsonObject.get?_append, JsonObject.get?_cons]
  have hlast : block.get? "ToPort" = rule.last.map PortSpelling.json := by
    rw [hget _ (by decide)]
    simp [SgShape.attributes, JsonObject.get?_append, JsonObject.get?_cons]
  have hprotocol : block.get? "IpProtocol" = some rule.protocol.json := by
    rw [hget _ (by decide)]
    simp [SgShape.attributes, JsonObject.get?_append, JsonObject.get?_cons]
  rw [h4, h6, hfirst, hlast, hprotocol]
  generalize hrec : member "from_port" (rule.first.map PortSpelling.json) ++
    member "to_port" (rule.last.map PortSpelling.json) ++
    member "protocol" (some rule.protocol.json) = rec
  have hports : portIncludesSsh numberText rec = true ↔
      (rule.protocol.All ∨ rule.protocol.Tcp) ∧ rule.PortRead := by
    subst hrec
    have hread : coalesce (JsonObject.get? (member "from_port" (rule.first.map PortSpelling.json) ++
        member "to_port" (rule.last.map PortSpelling.json) ++
        member "protocol" (some rule.protocol.json)) "protocol")
        (JsonObject.get? (member "from_port" (rule.first.map PortSpelling.json) ++
        member "to_port" (rule.last.map PortSpelling.json) ++
        member "protocol" (some rule.protocol.json)) "IpProtocol") = some rule.protocol.json := by
      simp [JsonObject.get?_append, coalesce_protocol]
    obtain ⟨hall, htcp⟩ := protocolText_json hnumber hread
    rw [@portIncludesSsh_iff numberText rule, ← hall, ← htcp]
    · exact and_congr_left fun _ => or_left_comm
    · simp [JsonObject.get?_append, coalesce_none_right]
    · simp [JsonObject.get?_append, coalesce_none_right]
  split
  · rename_i hseen
    rw [hports, ← cidrIsOpen_coalesce]
    exact (and_iff_right hseen).symm
  · rename_i hseen
    rw [cidrIsOpen_coalesce] at hseen
    exact iff_of_false Bool.false_ne_true fun h => hseen h.1

include hnumber in
/-- What the check sees of a shape whose protocol is looked at. -/
theorem isOpenSsh_resource_iff {shape : SgShape} (hshape : shape ≠ .vpcIngressRule)
    {rule : IngressRule} (hallows : shape.Allows rule) :
    isOpenSsh numberText (shape.resource rule others) = true ↔
      (rule.Open ∧ ¬ (shape.Single ∧ rule.Hidden)) ∧ (rule.protocol.All ∨ rule.protocol.Tcp) ∧
        rule.PortRead := by
  have hlists : ¬ shape.Single → (rule.Open ∧ ¬ (shape.Single ∧ rule.Hidden) ↔ rule.Open) :=
    fun hnot => and_iff_left fun h => hnot h.1
  have hsingle : shape.Single → (rule.Open ∧ ¬ (shape.Single ∧ rule.Hidden) ↔
      ∃ cidr ∈ rule.ipv4.head?.or rule.ipv6.head?, cidr = "0.0.0.0/0" ∨ cidr = "::/0") := by
    intro hsingle
    rw [seen_iff (hallows hsingle), and_iff_right hsingle]
  cases shape with
  | ingressBlock =>
      rw [hlists id,
        ← ingressOpensSsh_iff hnumber hothers (id : ¬SgShape.ingressBlock.Single)]
      change List.any [_] (ingressOpensSsh numberText) = true ↔ _
      rw [List.any_cons, List.any_nil, Bool.or_false]
  | ruleResource =>
      rw [hlists id,
        ← ingressOpensSsh_iff hnumber hothers (id : ¬SgShape.ruleResource.Single)]
      have htype : (SgShape.ruleResource.attributes rule ++ others).get? "type" =
          some (.str "ingress") := by
        rw [get?_append_others hothers (by decide)]
        simp [SgShape.attributes, JsonObject.get?_append, JsonObject.get?_cons]
      change (stringOf numberText ((coalesce ((SgShape.ruleResource.attributes rule ++ others).get?
        "type") none).getD (.str "")) == "ingress" && _) = true ↔ _
      rw [htype]
      exact Iff.rfl
  | vpcIngressRule => exact absurd rfl hshape
  | cfnInline =>
      rw [hsingle trivial, ← cfnIngressOpensSsh_iff hnumber hothers (Or.inl rfl)]
      change List.any [_] (cfnIngressOpensSsh numberText) = true ↔ _
      rw [List.any_cons, List.any_nil, Bool.or_false]
  | cfnIngress =>
      rw [hsingle trivial, ← cfnIngressOpensSsh_iff hnumber hothers (Or.inr rfl)]
      rfl

include hnumber in
/-- **Exactly these rules are told right.** -/
theorem isOpenSsh_iff (shape : SgShape) (rule : IngressRule) (hallows : shape.Allows rule) :
    (isOpenSsh numberText (shape.resource rule others) = true ↔ rule.AdmitsSsh) ↔
      shape.ReadsAsMeant rule := by
  unfold SgShape.ReadsAsMeant IngressRule.AdmitsSsh
  by_cases hshape : shape = .vpcIngressRule
  · subst hshape
    rw [vpcIngressRule_iff hothers, seen_iff (hallows trivial), admitsPort_iff]
    generalize rule.Open = o, rule.Hidden = h, rule.PortRead = p, rule.protocol.All = a,
      rule.protocol.Tcp = t
    have hsingle : SgShape.vpcIngressRule.Single ↔ True := Iff.rfl
    rw [hsingle]
    tauto
  · rw [isOpenSsh_resource_iff hnumber hothers hshape hallows, admitsPort_iff]
    generalize rule.Open = o, rule.Hidden = h, rule.PortRead = p, rule.protocol.All = a,
      rule.protocol.Tcp = t, shape.Single = s
    tauto

end Read

/-- A rule with ports in numbers, for everyone on IPv4. -/
def openRule (protocol : String) (first last : Int)
    (ranged : (IpProtocol.text protocol).Tcp → some (PortSpelling.number first) ≠ none ∧
      some (PortSpelling.number last) ≠ none) : IngressRule :=
  { protocol := .text protocol, first := some (.number first), last := some (.number last)
    ipv4 := ["0.0.0.0/0"], ipv6 := [], ranged := ranged }

theorem isOpenSsh_iff_tcp :
    (isOpenSsh (fun n => toString n.num) (SgShape.ingressBlock.resource
        (openRule "TCP" 20 30 fun _ => ⟨nofun, nofun⟩) [("description", .str "ssh")]) = true ↔
      (openRule "TCP" 20 30 fun _ => ⟨nofun, nofun⟩).AdmitsSsh) ↔
    SgShape.ingressBlock.ReadsAsMeant (openRule "TCP" 20 30 fun _ => ⟨nofun, nofun⟩) := by
  refine isOpenSsh_iff (fun n _ _ => rfl) ?_ .ingressBlock _ nofun
  intro f hf
  obtain rfl := List.mem_singleton.mp hf
  decide

/-- Every port is given as 0 to 0, as Terraform has it, and is missed; UDP in a resource of its
own is taken for TCP. -/
theorem isOpenSsh_misses :
    (openRule "-1" 0 0 fun _ => ⟨nofun, nofun⟩).AdmitsSsh ∧
      isOpenSsh (fun n => toString n.num) (SgShape.ingressBlock.resource
        (openRule "-1" 0 0 fun _ => ⟨nofun, nofun⟩) []) = false ∧
      ¬ (openRule "udp" 0 100 fun _ => ⟨nofun, nofun⟩).AdmitsSsh ∧
      isOpenSsh (fun n => toString n.num) (SgShape.vpcIngressRule.resource
        (openRule "udp" 0 100 fun _ => ⟨nofun, nofun⟩) []) = true := by
  have hopen : ∀ protocol first last ranged, (openRule protocol first last ranged).Open :=
    fun _ _ _ _ => ⟨"0.0.0.0/0", List.mem_cons_self, Or.inl rfl⟩
  refine ⟨⟨hopen _ _ _ _, Or.inl (show asciiLower "-1" = "-1" by decide)⟩,
    by decide +kernel, ?_, by decide +kernel⟩
  rintro ⟨-, hall | ⟨htcp, -⟩⟩
  · exact absurd hall (show ¬ asciiLower "udp" = "-1" by decide)
  · exact absurd htcp (show ¬ (asciiLower "udp" = "tcp" ∨ asciiLower "udp" = "6") by decide)

end Scanner
end Ctem
