import Ctem.Foundation.Url

/-!
# The GitLab origin of an integration

Discovery lists and clones from gitlab.com, unless the integration's `baseUrl` names a
host of its own.
-/

namespace Ctem
namespace Assets

open Foundation

/-- Where an integration's projects live. -/
structure GitLabOrigin where
  host : String
  origin : String
  apiUrl : String
deriving DecidableEq, Repr

/-- `GITLAB_COM`. -/
def gitlabCom : GitLabOrigin where
  host := "gitlab.com"
  origin := "https://gitlab.com"
  apiUrl := "https://gitlab.com/api/v4"

/-- `canonicalGitLabHostname`. -/
def canonicalGitLabHostname (hostname : String) : String :=
  if lowerHost hostname = "www.gitlab.com" then "gitlab.com" else lowerHost hostname

/-- `parseGitLabBaseUrl`. -/
def parseGitLabBaseUrl (parse : UrlParser) (raw : Option String) : Except String GitLabOrigin :=
  match nonEmpty (raw.map trimText) with
  | none => .ok gitlabCom
  | some trimmed =>
      if startsWith trimmed "git@" || startsWith trimmed "ssh:" || startsWith trimmed "ssh@" then
        .error ("Refusing git@ / ssh GitLab baseUrl: " ++ trimmed)
      else
        match parse trimmed with
        | none => .error "Refusing unparseable GitLab baseUrl"
        | some parsed =>
            if parsed.protocol ≠ "https:" then
              .error "Refusing non-https GitLab baseUrl — only https is permitted"
            else if parsed.username ≠ "" ∨ parsed.password ≠ "" then
              .error "Refusing GitLab baseUrl that embeds userinfo"
            else if parsed.port ≠ "" ∧ parsed.port ≠ "443" then
              .error "Refusing GitLab baseUrl with a non-default port"
            else
              let host := canonicalGitLabHostname parsed.hostname
              if host = "" then .error "Refusing GitLab baseUrl with an empty host"
              else if host = "gitlab.com" then .ok gitlabCom
              else
                .ok
                  { host := host
                    origin := "https://" ++ host
                    apiUrl := "https://" ++ host ++ "/api/v4" }

end Assets
end Ctem
