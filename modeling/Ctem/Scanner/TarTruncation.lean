import Mathlib.Data.List.Forall2
import Ctem.Scanner.UstarHeader

/-!
# Truncated archives

What the loop of `parseTar` makes of the first bytes of an archive.

* `completeMembers` are the members whose payload is there, `cutMember` the one whose
  payload is cut.
* `parseTarFrom_take`: the complete members are walked, and only a payload that is cut is
  an error.
* `parseTarBytes_take_error_iff` says which beginnings of an archive are refused.
-/

namespace Ctem
namespace Scanner

open Foundation

/-- The members that are complete in the first `n` bytes. -/
def completeMembers : List ArchiveMember → Nat → List ArchiveMember
  | [], _ => []
  | m :: rest, n =>
      if n < m.dataLength then [] else m :: completeMembers rest (n - m.bytes.length)

/-- The member whose payload ends behind the first `n` bytes and whose header does not. -/
def cutMember : List ArchiveMember → Nat → Option ArchiveMember
  | [], _ => none
  | m :: rest, n =>
      if n < m.dataLength then if 512 ≤ n then some m else none
      else cutMember rest (n - m.bytes.length)

def walkAll (walk : ByteWalk) (members : List ArchiveMember) : Except String ByteWalk :=
  members.foldlM (fun walk m => walkMember walk m.fields m.body) walk

/-- A member that is cut behind its header. -/
theorem parseTarFrom_cut (m : ArchiveMember) {n : Nat} (hheader : 512 ≤ n)
    (hcut : n < m.dataLength) (behind : List UInt8) (walk : ByteWalk) :
    parseTarFrom ((m.bytes ++ behind).take n) walk =
      .error (truncatedPayload (walk.nameOf m.fields)) := by
  have htake : ((m.bytes ++ behind).take n).take 512 = m.header := by
    rw [List.take_take, Nat.min_eq_left hheader, ArchiveMember.bytes, List.append_assoc,
      List.take_append_of_le_length (Nat.le_of_eq m.hlength.symm), ← m.hlength, List.take_length]
  have hlong : n ≤ (m.bytes ++ behind).length := by
    have hlen := m.length_bytes
    have hpad := m.hpadding
    unfold ArchiveMember.dataLength at hcut
    rw [List.length_append]
    omega
  have hdrop : (((m.bytes ++ behind).take n).drop 512).length = n - 512 := by
    rw [List.length_drop, List.length_take, Nat.min_eq_left hlong]
  rw [parseTarFrom, dif_pos (by rw [List.length_take, Nat.min_eq_left hlong]; exact hheader),
    htake, m.hnonzero, m.hfields]
  simp only [Bool.false_eq_true, if_false, bind, Except.bind]
  rw [if_pos]
  rw [hdrop, m.hsize]
  unfold ArchiveMember.dataLength at hcut
  omega

/-- A member that is complete. -/
theorem parseTarFrom_member (m : ArchiveMember) {n : Nat} (hcomplete : m.dataLength ≤ n)
    (behind : List UInt8) (walk : ByteWalk) :
    parseTarFrom ((m.bytes ++ behind).take n) walk = (do
      let walk' ← walkMember walk m.fields m.body
      parseTarFrom (behind.take (n - m.bytes.length)) walk') := by
  unfold ArchiveMember.dataLength at hcomplete
  have htake : ((m.bytes ++ behind).take n).take 512 = m.header := by
    rw [List.take_take, Nat.min_eq_left (by omega), ArchiveMember.bytes, List.append_assoc,
      List.take_append_of_le_length (Nat.le_of_eq m.hlength.symm), ← m.hlength, List.take_length]
  have hdrop : ((m.bytes ++ behind).take n).drop 512 =
      (m.body ++ (m.padding ++ behind)).take (n - 512) := by
    rw [List.drop_take, ArchiveMember.bytes, List.append_assoc, ← m.hlength,
      List.drop_left, List.append_assoc]
  have hbody : ((m.body ++ (m.padding ++ behind)).take (n - 512)).take m.body.length =
      m.body := by
    rw [List.take_take, Nat.min_eq_left (by omega), List.take_left]
  have hbehind : ((m.body ++ (m.padding ++ behind)).take (n - 512)).drop
      (paddedSize m.body.length) = behind.take (n - m.bytes.length) := by
    rw [List.drop_take, ← List.append_assoc, ← m.hpadding, ← List.length_append, List.drop_left,
      m.length_bytes, ← m.hpadding, List.length_append, Nat.sub_sub]
  have hlong : 512 + m.body.length ≤ ((m.bytes ++ behind).take n).length := by
    have hlen := m.length_bytes
    have hpad := m.hpadding
    rw [List.length_take, List.length_append]
    omega
  rw [parseTarFrom, dif_pos (by omega), htake, m.hnonzero, m.hfields]
  simp only [Bool.false_eq_true, if_false, bind, Except.bind]
  rw [if_neg (by rw [List.length_drop, m.hsize]; omega), hdrop, m.hsize, hbody, hbehind]

/-- The loop on the first `n` bytes of an archive. -/
theorem parseTarFrom_take (members : List ArchiveMember) (zeros n : Nat) (walk : ByteWalk) :
    parseTarFrom ((members.flatMap ArchiveMember.bytes ++ List.replicate zeros 0).take n) walk =
      (do
        let walk' ← walkAll walk (completeMembers members n)
        match cutMember members n with
        | some m => .error (truncatedPayload (walk'.nameOf m.fields))
        | none => .ok walk'.entries) := by
  induction members generalizing n walk with
  | nil =>
      rw [List.flatMap_nil, List.nil_append, List.take_replicate, parseTarFrom_zeros]
      rfl
  | cons m rest ih =>
      rw [List.flatMap_cons, List.append_assoc]
      by_cases hcut : n < m.dataLength
      · rw [completeMembers, if_pos hcut, cutMember, if_pos hcut]
        by_cases hheader : 512 ≤ n
        · rw [if_pos hheader, parseTarFrom_cut m hheader hcut]
          rfl
        · rw [if_neg hheader, parseTarFrom_short]
          · rfl
          · rw [List.length_take]
            omega
      · rw [completeMembers, if_neg hcut, cutMember, if_neg hcut,
          parseTarFrom_member m (Nat.le_of_not_lt hcut), walkAll, List.foldlM_cons, bind_assoc]
        congr 1
        funext walk'
        exact ih (n - m.bytes.length) walk'

theorem dataLength_le_length_bytes (m : ArchiveMember) : m.dataLength ≤ m.bytes.length := by
  have hpad := m.hpadding
  rw [m.length_bytes, ArchiveMember.dataLength]
  omega

/-- Nothing is cut where all the bytes are there. -/
theorem members_of_length_le {members : List ArchiveMember} {n : Nat}
    (h : (members.flatMap ArchiveMember.bytes).length ≤ n) :
    completeMembers members n = members ∧ cutMember members n = none := by
  induction members generalizing n with
  | nil => exact ⟨rfl, rfl⟩
  | cons m rest ih =>
      have hlong := dataLength_le_length_bytes m
      rw [List.flatMap_cons, List.length_append] at h
      obtain ⟨hcomplete, hcut⟩ := @ih (n - m.bytes.length) (by omega)
      rw [completeMembers, cutMember, if_neg (by omega), if_neg (by omega), hcomplete, hcut]
      exact ⟨rfl, rfl⟩

/-- The loop on a whole archive. -/
theorem parseTarFrom_archive (members : List ArchiveMember) (zeros : Nat) (walk : ByteWalk) :
    parseTarFrom (members.flatMap ArchiveMember.bytes ++ List.replicate zeros 0) walk =
      (walkAll walk members).map ByteWalk.entries := by
  have htake := parseTarFrom_take members zeros
    (members.flatMap ArchiveMember.bytes ++ List.replicate zeros 0).length walk
  obtain ⟨hcomplete, hcut⟩ := @members_of_length_le members
    (members.flatMap ArchiveMember.bytes ++ List.replicate zeros 0).length (by
      rw [List.length_append]
      exact Nat.le_add_right _ _)
  rw [List.take_length, hcomplete, hcut] at htake
  rw [htake]
  cases walkAll walk members <;> rfl

theorem walkAll_bytes {members : List ArchiveMember} {headers : List TarHeader}
    (h : List.Forall₂ (fun m h => Decodes m.fields m.body h) members headers) (walk : TarWalk) :
    walkAll walk.bytes members = (headers.foldlM walkHeader walk).map TarWalk.bytes := by
  induction h generalizing walk with
  | nil => rfl
  | @cons m header _ _ hfirst _ ih =>
      rw [walkAll, List.foldlM_cons, List.foldlM_cons, walkMember_bytes hfirst]
      cases walkHeader walk header with
      | error e => rfl
      | ok walk' => exact ih walk'

/-- On the bytes of an archive the parser reads the entries it reads of its headers. -/
theorem parseTarFrom_headers {members : List ArchiveMember} {headers : List TarHeader}
    (h : List.Forall₂ (fun m h => Decodes m.fields m.body h) members headers) (zeros : Nat) :
    parseTarBytes (members.flatMap ArchiveMember.bytes ++ List.replicate zeros 0) =
      (parseTar headers).map fun entries => entries.map TarEntry.bytes := by
  have hwalk : walkAll {} members = (headers.foldlM walkHeader {}).map TarWalk.bytes :=
    walkAll_bytes h {}
  rw [parseTarBytes, parseTarFrom_archive, hwalk, parseTar]
  cases headers.foldlM walkHeader {} <;> rfl

/-! ## Truncated archives -/

/-- The members, and the zeros at the end. -/
def archiveBytes (members : List ArchiveMember) (zeros : Nat) : List UInt8 :=
  members.flatMap ArchiveMember.bytes ++ List.replicate (1024 + zeros) 0

/-- The first `n` bytes end behind the header of a member and in front of the end of its
payload. -/
def CutsPayload (members : List ArchiveMember) (n : Nat) : Prop :=
  ∃ before m behind, members = before ++ m :: behind ∧
    (before.flatMap ArchiveMember.bytes).length + 512 ≤ n ∧
    n < (before.flatMap ArchiveMember.bytes).length + m.dataLength

theorem cutMember_isSome_iff (members : List ArchiveMember) (n : Nat) :
    (∃ m, cutMember members n = some m) ↔ CutsPayload members n := by
  induction members generalizing n with
  | nil =>
      refine ⟨fun ⟨m, h⟩ => (nomatch h), ?_⟩
      rintro ⟨before, m, behind, hmembers, _⟩
      cases before <;> cases hmembers
  | cons first rest ih =>
      have hlong := dataLength_le_length_bytes first
      by_cases hfirst : n < first.dataLength
      · rw [cutMember, if_pos hfirst]
        constructor
        · rintro ⟨m, hm⟩
          split at hm
          · rename_i hheader
            exact ⟨[], first, rest, rfl, by simpa using hheader, by simpa using hfirst⟩
          · cases hm
        · rintro ⟨before, m, behind, hmembers, hheader, _⟩
          rw [if_pos (by omega)]
          exact ⟨first, rfl⟩
      · rw [cutMember, if_neg hfirst, ih]
        constructor
        · rintro ⟨before, m, behind, rfl, hheader, hpayload⟩
          refine ⟨first :: before, m, behind, rfl, ?_, ?_⟩
          · rw [List.flatMap_cons, List.length_append]
            omega
          · rw [List.flatMap_cons, List.length_append]
            omega
        · rintro ⟨before, m, behind, hmembers, hheader, hpayload⟩
          cases before with
          | nil =>
              obtain ⟨rfl, rfl⟩ := List.cons.inj hmembers
              rw [List.flatMap_nil, List.length_nil, Nat.zero_add] at hpayload
              exact absurd hpayload hfirst
          | cons _ before =>
              obtain ⟨rfl, rfl⟩ := List.cons.inj hmembers
              rw [List.flatMap_cons, List.length_append] at hheader hpayload
              exact ⟨before, m, behind, rfl, by omega, by omega⟩

/-- A beginning of an archive is refused if and only if it ends in a payload, or the members
that are complete in it are refused themselves. -/
theorem parseTarBytes_take_error_iff (members : List ArchiveMember) (zeros n : Nat) :
    (∃ e, parseTarBytes ((archiveBytes members zeros).take n) = .error e) ↔
      CutsPayload members n ∨ ∃ e, walkAll {} (completeMembers members n) = .error e := by
  rw [parseTarBytes, archiveBytes, parseTarFrom_take, ← cutMember_isSome_iff]
  cases hwalk : walkAll {} (completeMembers members n) with
  | error e => exact iff_of_true ⟨e, rfl⟩ (Or.inr ⟨e, rfl⟩)
  | ok walk =>
      simp only [bind, Except.bind]
      cases cutMember members n with
      | some m => exact iff_of_true ⟨_, rfl⟩ (Or.inl ⟨m, rfl⟩)
      | none =>
          refine iff_of_false (fun ⟨e, h⟩ => (nomatch h)) ?_
          rintro (⟨m, h⟩ | ⟨e, h⟩)
          · cases h
          · cases h

/-- An empty file. -/
def emptyFile (header : UstarHeader) (hsize : header.size = 0) : ArchiveMember where
  header := header.bytes
  fields := header.fields
  body := []
  padding := []
  hlength := header.length_bytes
  hnonzero := header.not_isZeroBlock
  hfields := header.readHeader_bytes
  hsize := hsize
  hpadding := rfl

/-- The file `a`. -/
def fileA : ArchiveMember :=
  emptyFile (plainHeader "a" '0' "00000000000" "001641" ⟨by decide, rfl⟩ (by decide) ⟨rfl, rfl⟩
    ⟨rfl, rfl⟩ rfl) rfl

/-- The file `b`. -/
def fileB : ArchiveMember :=
  emptyFile (plainHeader "b" '0' "00000000000" "001642" ⟨by decide, rfl⟩ (by decide) ⟨rfl, rfl⟩
    ⟨rfl, rfl⟩ rfl) rfl

/-- The two files, and what is complete in the first `n` bytes. -/
theorem take_twoFiles {n : Nat} (hfirst : 512 ≤ n) :
    parseTarBytes ((archiveBytes [fileA, fileB] 0).take n) =
      .ok ({ name := "a", type := .file, body := some [] } ::
        if n < 1024 then [] else [{ name := "b", type := .file, body := some [] }]) := by
  have hdata : fileA.dataLength = 512 ∧ fileB.dataLength = 512 := ⟨rfl, rfl⟩
  have hbytes : fileA.bytes.length = 512 := fileA.length_bytes
  rw [parseTarBytes, archiveBytes, parseTarFrom_take, completeMembers, cutMember, hdata.1, hbytes,
    if_neg (Nat.not_lt.mpr hfirst), if_neg (Nat.not_lt.mpr hfirst), completeMembers, cutMember,
    hdata.2]
  by_cases hsecond : n < 1024
  · rw [if_pos (show n - 512 < 512 by omega), if_pos (show n - 512 < 512 by omega),
      if_neg (show ¬ 512 ≤ n - 512 by omega), if_pos hsecond]
    rfl
  · rw [if_neg (show ¬ n - 512 < 512 by omega), if_neg (show ¬ n - 512 < 512 by omega),
      if_neg hsecond]
    rfl

/-- Cut behind the first of two files, or in the header of the second, an archive reads as one
with a single file. -/
theorem parseTarBytes_short_list :
    parseTarBytes (archiveBytes [fileA, fileB] 0) =
        .ok [{ name := "a", type := .file, body := some [] },
          { name := "b", type := .file, body := some [] }] ∧
      ∀ n, 512 ≤ n → n < 1024 →
        parseTarBytes ((archiveBytes [fileA, fileB] 0).take n) =
          .ok [{ name := "a", type := .file, body := some [] }] := by
  refine ⟨?_, fun n hfirst hsecond => ?_⟩
  · have hlong : 1024 ≤ (archiveBytes [fileA, fileB] 0).length := by
      rw [archiveBytes, List.length_append, List.length_replicate]
      omega
    have hread := @take_twoFiles (archiveBytes [fileA, fileB] 0).length (by omega)
    rw [List.take_length, if_neg (Nat.not_lt.mpr hlong)] at hread
    exact hread
  · rw [take_twoFiles hfirst, if_pos hsecond]

end Scanner
end Ctem
