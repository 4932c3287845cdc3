import Ctem.Foundation.JsText

/-!
# URLs

What a program reads off a parsed URL, and the small text operations on host names
and paths.  The parser itself is a parameter of whoever uses it.

* `Url` carries what every parser guarantees of a host name: no slash in it.
* `urlHost` reads the host off the text of an `https` URL; `urlHost_https` says that it
  is the host the text was built with.
-/

namespace Ctem
namespace Foundation

/-- The parts of a parsed URL. -/
structure Url where
  protocol : String
  hostname : String
  port : String := ""
  username : String := ""
  password : String := ""
  pathname : String := "/"
  hostNoSlash : '/' ∉ hostname.toList

/-- `new URL(text)`, which throws on a text it cannot parse. -/
abbrev UrlParser := String → Option Url

/-- `text.replace(/suffix$/, '')` for a literal suffix. -/
def dropSuffix (suffix : String) (s : String) : String :=
  if suffix.toList.isSuffixOf s.toList then
    String.ofList (s.toList.take (s.toList.length - suffix.toList.length))
  else s

/-- `hostname.toLowerCase().replace(/\.$/, '')`. -/
def lowerHost (hostname : String) : String :=
  dropSuffix "." (asciiLower hostname)

/-- `text.replace(/\/+$/, '')`. -/
def dropTrailingSlashes (s : String) : String :=
  String.ofList (s.toList.reverse.dropWhile fun c => decide (c = '/')).reverse

/-- `text.split('/').filter(Boolean)`. -/
def pathSegments (s : String) : List String :=
  ((splitOn '/' s.toList).map String.ofList).filter fun part => decide (part ≠ "")

/-- The text of an `https` URL with this host and path. -/
def httpsUrl (host path : String) : String :=
  "https://" ++ host ++ "/" ++ path

/-- The host in the text of an `https` URL without credentials and port. -/
def urlHost (url : String) : String :=
  String.ofList ((url.toList.drop 8).takeWhile fun c => decide (c ≠ '/'))

/-- The host of a text is the one it was built with. -/
theorem urlHost_httpsUrl {host : String} (hslash : '/' ∉ host.toList) (path : String) :
    urlHost (httpsUrl host path) = host := by
  unfold urlHost httpsUrl
  apply String.toList_inj.mp
  have hdrop : ("https://" ++ host ++ "/" ++ path).toList.drop 8 =
      host.toList ++ '/' :: path.toList := by
    simp only [String.toList_append, List.append_assoc]
    rfl
  rw [String.toList_ofList, hdrop, List.takeWhile_append_of_pos]
  · simp
  · intro c hc
    simp only [ne_eq, decide_eq_true_eq]
    rintro rfl
    exact hslash hc

theorem mem_dropSuffix {suffix s : String} {c : Char} (h : c ∈ (dropSuffix suffix s).toList) :
    c ∈ s.toList := by
  unfold dropSuffix at h
  split at h
  · rw [String.toList_ofList] at h
    exact List.mem_of_mem_take h
  · exact h

theorem toLower_eq_slash {c : Char} (h : c.toLower = '/') : c = '/' := by
  unfold Char.toLower at h
  split at h
  · rename_i hupper
    -- a letter in lower case lies above the slash
    have hval : (c.val + ('a'.val - 'A'.val)).toNat = '/'.val.toNat :=
      congrArg (fun d : Char => d.val.toNat) h
    have hlow := UInt32.le_iff_toNat_le.mp hupper.1
    have hhigh := UInt32.le_iff_toNat_le.mp hupper.2
    rw [UInt32.toNat_add] at hval
    have hA : 'A'.val.toNat = 65 := rfl
    have hZ : 'Z'.val.toNat = 90 := rfl
    have hshift : ('a'.val - 'A'.val).toNat = 32 := rfl
    have hslash : '/'.val.toNat = 47 := rfl
    omega
  · exact h

/-- Lower case has no slash that was not there. -/
theorem slash_not_mem_lowerHost {hostname : String} (h : '/' ∉ hostname.toList) :
    '/' ∉ (lowerHost hostname).toList := by
  intro hmem
  have hlower := mem_dropSuffix hmem
  unfold asciiLower at hlower
  rw [String.toList_ofList, List.mem_map] at hlower
  obtain ⟨c, hc, hslash⟩ := hlower
  exact h (toLower_eq_slash hslash ▸ hc)

end Foundation
end Ctem
