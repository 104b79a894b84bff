import RouteSmith.Text.Chars
import RouteSmith.Text.IpAddr

/-! # The base URLs of providers

What base URLs an administrator may give a provider. The URL parser and the text of an address are
parameters.
-/

namespace RouteSmith.Model

open Text

/-- A host as the URL parser reads it, with the text that `host_str` gives of it. -/
inductive UrlHost where
  | domain (text : String)
  | ip (addr : IpAddr) (text : String)

def UrlHost.text : UrlHost → String
  | domain text => text
  | ip _ text => text

structure ParsedUrl where
  scheme : String
  username : String := ""
  password : Option String := none
  fragment : Option String := none
  query : Option String := none
  host : Option UrlHost

/-- The URL parser with the text of its errors, the text of an address, and the flag
`MODELPORT_ALLOW_INSECURE_PROVIDER_HTTP`. -/
structure UrlEnv where
  parse : String → Except String ParsedUrl
  displayIp : IpAddr → String
  insecureProviderHttp : Bool

/-! ## Ranges of addresses -/

def isPrivateIpv4 : List ℕ → Bool
  | [10, _, _, _] => true
  | [172, b, _, _] => 16 ≤ b && b ≤ 31
  | [192, 168, _, _] => true
  | _ => false

def isLinkLocalIpv4 : List ℕ → Bool
  | [169, 254, _, _] => true
  | _ => false

def isLoopback : IpAddr → Bool
  | .v4 octets => octets.head? = some 127
  | .v6 segments => segments = [0, 0, 0, 0, 0, 0, 0, 1]

def privateOrMetadataIpv4 (octets : List ℕ) : Bool :=
  isPrivateIpv4 octets || isLoopback (.v4 octets) || isLinkLocalIpv4 octets ||
    octets = [0, 0, 0, 0] || octets = [169, 254, 169, 254]

def ipv6IsUniqueLocal (segments : List ℕ) : Bool := segments.headD 0 &&& 0xFE00 = 0xFC00

def ipv6IsUnicastLinkLocal (segments : List ℕ) : Bool := segments.headD 0 &&& 0xFFC0 = 0xFE80

def toIpv4Mapped : List ℕ → Option (List ℕ)
  | [0, 0, 0, 0, 0, 0xFFFF, ab, cd] => some [ab / 256, ab % 256, cd / 256, cd % 256]
  | _ => none

def privateOrMetadataIp : IpAddr → Bool
  | .v4 octets => privateOrMetadataIpv4 octets
  | .v6 segments =>
    match toIpv4Mapped segments with
    | some octets => privateOrMetadataIpv4 octets
    | none =>
      isLoopback (.v6 segments) || segments = List.replicate 8 0 || ipv6IsUniqueLocal segments ||
        ipv6IsUnicastLinkLocal segments

/-! ## The policy -/

def providerAllowsLoopbackBaseUrl (providerId : String) : Bool :=
  startsWith providerId "local_" ||
    ["custom", "ollama", "local_sglang", "local_vllm", "local_llamacpp"].contains providerId

def providerAllowsTrustedInternalHttp (providerId host : String) : Bool :=
  startsWith providerId "cpa_" &&
    (eqIgnoreAsciiCase host "localhost" || eqIgnoreAsciiCase host "host.docker.internal" ||
      (IpAddr.parse host).any isLoopback || !host.toList.contains '.')

/-- `trim_matches` for the two brackets, then `trim_end_matches` for dots. -/
def bareHost (text : String) : String :=
  let bracket (c : Char) : Bool := c = '[' || c = ']'
  let cs := (text.toList.dropWhile bracket).reverse.dropWhile bracket
  String.ofList (cs.dropWhile (· = '.')).reverse

variable (env : UrlEnv)

def validateHost (providerId scheme host : String) (allowPrivateProviderUrls : Bool) :
    Except String Unit :=
  let privateLiteralHost :=
    eqIgnoreAsciiCase host "localhost" || (IpAddr.parse host).any privateOrMetadataIp
  let permitted :=
    providerAllowsLoopbackBaseUrl providerId || providerAllowsTrustedInternalHttp providerId host
  if scheme = "http" && !permitted && (!allowPrivateProviderUrls || !privateLiteralHost) &&
      !env.insecureProviderHttp then
    .error ("remote provider URLs must use https; set MODELPORT_ALLOW_INSECURE_PROVIDER_HTTP=1 " ++
      "only for a trusted internal HTTP upstream")
  else if allowPrivateProviderUrls then .ok ()
  else if eqIgnoreAsciiCase host "localhost" then
    if permitted then .ok ()
    else .error "localhost base URLs are only allowed for local/custom/CPA providers"
  else
    match IpAddr.parse host with
    | none => .ok ()
    | some ip =>
      if isLoopback ip && permitted then .ok ()
      else if privateOrMetadataIp ip then
        .error ("private, link-local, metadata, or unspecified IP `" ++ env.displayIp ip ++
          "` requires MODELPORT_ALLOW_PRIVATE_PROVIDER_URLS=1")
      else .ok ()

def validateProviderBaseUrlPolicy (providerId baseUrl : String) (allowPrivateProviderUrls : Bool) :
    Except String Unit :=
  match env.parse baseUrl with
  | .error err => .error ("invalid URL: " ++ err)
  | .ok url =>
    if url.scheme ≠ "http" ∧ url.scheme ≠ "https" then .error "URL scheme must be http or https"
    else if !isEmpty url.username || url.password.isSome then
      .error "URL userinfo is not allowed"
    else if url.fragment.isSome then .error "URL fragments are not allowed"
    else if url.query.isSome then
      .error "URL query parameters are not allowed; provider credentials must use headers"
    else
      match url.host with
      | none => .error "URL host is required"
      | some host =>
        let host := bareHost host.text
        if isEmpty host then .error "URL host is required"
        else validateHost env providerId url.scheme host allowPrivateProviderUrls

end RouteSmith.Model
