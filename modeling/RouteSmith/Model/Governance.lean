import RouteSmith.Model.Config
import RouteSmith.Text.IpAddr

/-! # Data-egress policy

Where a provider stands relative to the local boundary, and which providers a project's
policy lets a request use. The host of a URL is read by a parser outside the gateway, which
stands here as the parameter `urlHost`.
-/

namespace RouteSmith.Model

open Text

inductive HybridMode where
  | localStrict
  | localFirst
  | balanced
  | cloudFirst
  deriving DecidableEq

namespace HybridMode

def asStr : HybridMode → String
  | localStrict => "local_strict"
  | localFirst => "local_first"
  | balanced => "balanced"
  | cloudFirst => "cloud_first"

def egressRank : HybridMode → ℕ
  | localStrict => 0
  | localFirst => 1
  | balanced => 2
  | cloudFirst => 3

def restrictTo (mode maximum : HybridMode) : Except AppError HybridMode :=
  if mode.egressRank ≤ maximum.egressRank then .ok mode
  else .error (.forbidden ("requested routing mode " ++ mode.asStr ++
    " exceeds project maximum " ++ maximum.asStr))

end HybridMode

inductive DataClassification where
  | unknown
  | sensitive
  | internal
  | «public»
  deriving DecidableEq

namespace DataClassification

def forcesLocal : DataClassification → Bool
  | unknown | sensitive => true
  | internal | «public» => false

end DataClassification

/-! ## The local boundary -/

inductive ProviderBoundary where
  | «local»
  | cloud
  deriving DecidableEq

def isLocalAddress : IpAddr → Bool
  | .v4 octets =>
    match octets with
    | [127, _, _, _] => true
    | [10, _, _, _] => true
    | [172, b, _, _] => 16 ≤ b && b ≤ 31
    | [192, 168, _, _] => true
    | [169, 254, _, _] => true
    | octets => octets = [0, 0, 0, 0]
  | .v6 segments =>
    segments = [0, 0, 0, 0, 0, 0, 0, 1] ||
      segments.head?.any fun first =>
        (0xFC00 ≤ first && first ≤ 0xFDFF) || (0xFE80 ≤ first && first ≤ 0xFEBF)

def isLocalHost (host : String) : Bool :=
  eqIgnoreAsciiCase host "localhost" || (IpAddr.parse host).any isLocalAddress

section

variable (urlHost : String → Option String)

/-- `ProviderBoundary::for_resolved`, which reads the identifier and the base URL. -/
def ProviderBoundary.forResolved (resolved : ResolvedProvider) : ProviderBoundary :=
  if startsWith resolved.providerId "local_" || startsWith resolved.providerId "cpa_" ||
      resolved.providerId == "ollama" || (urlHost resolved.provider.baseUrl).any isLocalHost
  then .local
  else .cloud

def orderAttempts (attempts : List ResolvedProvider) (mode : HybridMode) :
    List ResolvedProvider :=
  let (localAttempts, cloudAttempts) := attempts.partition fun attempt =>
    ProviderBoundary.forResolved urlHost attempt = .local
  match mode with
  | .localStrict => localAttempts
  | .localFirst => localAttempts ++ cloudAttempts
  | .balanced => localAttempts ++ cloudAttempts
  | .cloudFirst => cloudAttempts ++ localAttempts

/-- The region and API version of a provider. -/
def providerGovernanceMetadata (resolved : ResolvedProvider) : String × String :=
  if ProviderBoundary.forResolved urlHost resolved = .local then
    ("local", "openai-compatible-v1")
  else
    let host := (urlHost resolved.provider.baseUrl).getD ""
    let region :=
      if endsWith host ".cn" || contains host "cn-" then "cn"
      else if contains host "eu-" || endsWith host ".eu" then "eu"
      else if contains host "us-" || endsWith host ".us" then "us"
      else "global"
    let apiVersion :=
      match resolved.provider.protocol with
      | .anthropic => "anthropic-v1"
      | .openaiCompat => "openai-compatible-v1"
    (region, apiVersion)

/-! ## Project policies -/

def matchesPolicy (rules : List String) (value : String) : Bool :=
  rules.any fun rule =>
    rule == "*" || rule == value || (stripFinal '*' rule).any (startsWith value)

structure ProjectPolicy where
  maximumMode : HybridMode := .localStrict
  defaultClassification : DataClassification := .unknown
  allowedProviders : List String := []
  allowedModels : List String := []
  allowedRegions : List String := []
  allowedApiVersions : List String := []
  cloudEnabled : Bool := false
  deriving DecidableEq

namespace ProjectPolicy

def effectiveMode (policy : ProjectPolicy) (requested : Option HybridMode)
    (classification : DataClassification) : Except AppError HybridMode :=
  if classification.forcesLocal then .ok .localStrict
  else (requested.getD policy.maximumMode).restrictTo policy.maximumMode

/-- One allowlist of a policy; an empty one allows everything. -/
def enforceList (rules : List String) (what value : String) : Except AppError Unit :=
  if !rules.isEmpty && !matchesPolicy rules value then
    .error (.forbidden ("project policy does not allow " ++ what ++ " " ++ value))
  else .ok ()

def enforceAttempt (policy : ProjectPolicy) (resolved : ResolvedProvider) :
    Except AppError Unit := do
  if ProviderBoundary.forResolved urlHost resolved = .cloud ∧ policy.cloudEnabled = false then
    .error (.forbidden "project policy does not enable cloud routing")
  enforceList policy.allowedProviders "provider" resolved.providerId
  enforceList policy.allowedModels "model" resolved.model
  let (region, apiVersion) := providerGovernanceMetadata urlHost resolved
  enforceList policy.allowedRegions "provider region" region
  enforceList policy.allowedApiVersions "provider API version" apiVersion

end ProjectPolicy

end

end RouteSmith.Model
