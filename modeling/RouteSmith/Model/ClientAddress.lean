import RouteSmith.Model.ProviderUrl
import RouteSmith.Model.Policy
import RouteSmith.Text.Networks

/-! # The address of a client

Behind trusted proxies, the address that a request comes from is read from the headers that the
proxies set.
-/

namespace RouteSmith.Model

open Text

/-! ## Trusted proxies -/

inductive IpRule where
  | exact (ip : IpAddr)
  | cidr (base : IpAddr) (bits : ℕ)

def cidrMatches (base ip bits width : ℕ) : Bool :=
  if bits = 0 then true else base >>> (width - bits) = ip >>> (width - bits)

def ipRuleMatches : IpRule → IpAddr → Bool
  | .exact exact, ip => exact = ip
  | .cidr (.v4 base) bits, .v4 ip =>
    bits ≤ 32 && cidrMatches (IpAddr.value (.v4 base)) (IpAddr.value (.v4 ip)) bits 32
  | .cidr (.v6 base) bits, .v6 ip =>
    bits ≤ 128 && cidrMatches (IpAddr.value (.v6 base)) (IpAddr.value (.v6 ip)) bits 128
  | .cidr _ _, _ => false

structure TrustedProxyConfig where
  rules : List IpRule

namespace TrustedProxyConfig

def loopbackRules : List IpRule :=
  [.exact (.v4 [127, 0, 0, 1]), .exact (.v6 [0, 0, 0, 0, 0, 0, 0, 1])]

def isTrusted (config : TrustedProxyConfig) (ip : IpAddr) : Bool :=
  isLoopback ip || config.rules.any fun rule => ipRuleMatches rule ip

end TrustedProxyConfig

/-! ## Forwarded addresses -/

/-- The values of each header in the order of its lines, a character for each byte. -/
abbrev HeaderLines := String → List String

/-- The bytes that `HeaderValue::to_str` lets pass. -/
def isVisibleAscii (c : Char) : Bool := (32 ≤ c.toNat && c.toNat < 127) || c = '\t'

/-- The first value of a header, if it is text. -/
def HeaderLines.text (headers : HeaderLines) (name : String) : Option String :=
  (headers name).head?.filter fun value => value.toList.all isVisibleAscii

/-- The parts before and after the last occurrence of a character. -/
def rsplitOnce (sep : Char) (s : String) : Option (String × String) :=
  match s.toList.reverse.span (· != sep) with
  | (_, []) => none
  | (after, _ :: before) => some (String.ofList before.reverse, String.ofList after.reverse)

def parseIpWithOptionalPort (value : String) : Option IpAddr :=
  let value := trim value
  (IpAddr.parse value).or ((rsplitOnce ':' value).bind fun (host, _) => IpAddr.parse host)

def forwardedClientIp (headers : HeaderLines) (peerIp : IpAddr) (config : TrustedProxyConfig) :
    Option IpAddr :=
  let chain := (headers.text "x-forwarded-for").elim [] fun value =>
    (value.toList.splitOn ',').filterMap fun item => parseIpWithOptionalPort (String.ofList item)
  if !chain.isEmpty then
    some (((chain ++ [peerIp]).reverse.find? fun ip => !config.isTrusted ip).getD peerIp)
  else
    ["x-real-ip", "cf-connecting-ip"].findSome? fun name =>
      (headers.text name).bind parseIpWithOptionalPort

/-- The address that `client_ip` writes out. -/
def clientIp (headers : HeaderLines) (peer : Option IpAddr) (config : TrustedProxyConfig) :
    Option IpAddr :=
  match peer with
  | none => none
  | some peerIp =>
    if config.isTrusted peerIp then (forwardedClientIp headers peerIp config).or (some peerIp)
    else some peerIp

end RouteSmith.Model
