import Ctem.Contracts
import Ctem.Foundation.JsText

/-!
# The artifact store

Raw scanner output, SBOMs and reports live in object storage under org-prefixed
keys.  The store itself checks nothing: `get` and `put` take any key.
-/

namespace Ctem
namespace Scanner

open Foundation Contracts

namespace ArtifactStore

/-- What the first segment behind the organisation may be. -/
inductive Kind where
  | scan | sbom | report | evidence
deriving DecidableEq, Repr

def Kind.name : Kind → String
  | scan => "scan"
  | sbom => "sbom"
  | report => "report"
  | evidence => "evidence"

/-- `org=<orgId>`, the first segment of every key `key` builds. -/
def orgSegment (orgId : OrgId) : String :=
  "org=" ++ orgId

/-- `[org=…, kind, ...parts].join('/')`. -/
def key (orgId : OrgId) (kind : Kind) (parts : List String) : String :=
  parts.foldl (fun acc part => acc ++ "/" ++ part) (orgSegment orgId ++ "/" ++ kind.name)

/-- The prefix that separates one organisation's keys from another's. -/
def orgPrefix (orgId : OrgId) : String :=
  orgSegment orgId ++ "/"

/-- `key.startsWith(prefix)` as a proposition. -/
def HasPrefix (key pre : String) : Prop :=
  ∃ rest, key = pre ++ rest

theorem hasPrefix_iff_startsWith (key pre : String) :
    HasPrefix key pre ↔ startsWith key pre = true := by
  unfold startsWith
  rw [List.isPrefixOf_iff_prefix]
  constructor
  · rintro ⟨rest, rfl⟩
    exact ⟨rest.toList, String.toList_append.symm⟩
  · rintro ⟨rest, hrest⟩
    refine ⟨String.ofList rest, String.toList_inj.mp ?_⟩
    rw [String.toList_append, String.toList_ofList, hrest]

instance (key pre : String) : Decidable (HasPrefix key pre) :=
  decidable_of_iff _ (hasPrefix_iff_startsWith key pre).symm

theorem hasPrefix_foldl_join (parts : List String) (acc pre : String) (h : HasPrefix acc pre) :
    HasPrefix (parts.foldl (fun acc part => acc ++ "/" ++ part) acc) pre := by
  induction parts generalizing acc with
  | nil => exact h
  | cons part parts ih =>
      obtain ⟨rest, rfl⟩ := h
      apply ih
      exact ⟨rest ++ "/" ++ part, by simp only [String.append_assoc]⟩

/-- A key the store builds lies under its organisation's prefix. -/
theorem hasPrefix_key (orgId : OrgId) (kind : Kind) (parts : List String) :
    HasPrefix (key orgId kind parts) (orgPrefix orgId) :=
  hasPrefix_foldl_join parts _ _ ⟨kind.name, rfl⟩

end ArtifactStore

end Scanner
end Ctem
