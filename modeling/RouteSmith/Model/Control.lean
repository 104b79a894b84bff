import RouteSmith.Model.Config

/-! # Control-plane state and provider credentials

The part of the control plane that routing and sending read. The process environment is the
parameter `env`.
-/

namespace RouteSmith.Model

open Store Text

structure ProviderCredentialRecord where
  id : String
  apiKeyEnv : String
  baseUrl : Option String := none
  status : String := "active"
  deriving DecidableEq

structure ProviderHealthRecord where
  cooldownUntilMs : Option ℕ := none
  lastError : Option String := none
  lastStatusCode : Option ℕ := none
  deriving DecidableEq

structure ProviderTestRecord where
  success : Bool
  discoveredModels : List String
  deriving DecidableEq

structure ProviderOverrideRecord where
  protocol : String
  baseUrl : String
  apiKeyEnv : Option String := none
  apiKeyRequired : Bool := true
  defaultModel : String
  models : List String := []
  modelPrefixes : List String := []
  passthroughUnknownModels : Bool := false
  maxTokensField : String := "max_completion_tokens"
  deduplicateStreamText : Bool := false
  bufferStreamText : Bool := false
  fidelityMode : String := "best_effort"
  toolUse : ToolUseConfig := {}
  pricing : Option ModelPricing := none
  deriving DecidableEq

/-- An override of one model; overrides are kept under their models' names. -/
structure ProviderModelOverrideRecord where
  status : String
  deriving DecidableEq

structure RouteConfigRecord where
  aliases : NameMap String := ∅
  deletedAliases : List String := []
  defaultProvider : Option String := none
  providerOrder : Option (List String) := none
  deriving DecidableEq

structure ControlInner where
  routeConfig : RouteConfigRecord := {}
  providerTests : NameMap ProviderTestRecord := ∅
  providerHealth : NameMap ProviderHealthRecord := ∅
  providerOverrides : NameMap ProviderOverrideRecord := ∅
  disabledProviders : List String := []
  deletedProviders : List String := []
  providerModelOverrides : NameMap (NameMap ProviderModelOverrideRecord) := ∅
  providerCredentials : NameMap (NameMap ProviderCredentialRecord) := ∅
  activeProviderCredentials : NameMap String := ∅
  providerCredentialPoolModes : NameMap String := ∅
  providerCredentialHealth : NameMap (NameMap ProviderHealthRecord) := ∅
  deriving DecidableEq

/-! ## Provider failures -/

/-- The kind of failure named by `provider_failure_guidance`. -/
def providerFailureKind (statusCode : Option ℕ) (error : Option String) : String :=
  let normalized := toAsciiLowercase (error.getD "")
  if AppError.balanceMarkers.any (contains normalized) then "account"
  else if statusCode = some 401 ∨ statusCode = some 403 then "account"
  else if statusCode = some 429 ∨ contains normalized "rate limit" then "rate_limit"
  else if contains normalized "missing" || contains normalized "api key" then "config"
  else if statusCode.any (500 ≤ ·) then "upstream_unavailable"
  else if error.isSome then "unknown"
  else "none"

def shouldRotateProviderCredential (failureKind : String) : Bool :=
  failureKind ∈ ["account", "rate_limit", "config"]

/-! ## Credential pools -/

namespace ControlInner

def providerCredentialPoolMode (inner : ControlInner) (providerId : String) : String :=
  (inner.providerCredentialPoolModes.lookup providerId).getD "failover"

section

variable (env : String → Option String)

/-- The secret of an environment variable, unless it is blank. -/
def secret (name : String) : Option String := (env name).filter fun value => !isEmpty (trim value)

def providerCredentialIsUsable (credential : ProviderCredentialRecord)
    (health : Option (NameMap ProviderHealthRecord)) (now : ℕ) : Bool :=
  credential.status != "disabled" && (secret env credential.apiKeyEnv).isSome &&
    ((health.bind (·.lookup credential.id)).bind (·.cooldownUntilMs)).all (· ≤ now)

def roundRobinProviderCredential (candidates : List ProviderCredentialRecord)
    (currentId : Option String) : Option ProviderCredentialRecord :=
  match candidates, currentId with
  | [], _ => none
  | first :: _, none => some first
  | first :: _, some currentId =>
    let following := (candidates.dropWhile fun credential => credential.id != currentId).drop 1
    ((following ++ candidates).find? fun credential => credential.id != currentId).or first

/-- `select_provider_credential_locked`: the credential chosen from the pool, and the state
in which it is the active one. -/
def selectProviderCredential (inner : ControlInner) (providerId : String) (now : ℕ) :
    Option ProviderCredentialRecord × ControlInner :=
  match inner.providerCredentials.lookup providerId with
  | none => (none, inner)
  | some credentials =>
    let activeId := inner.activeProviderCredentials.lookup providerId
    let health := inner.providerCredentialHealth.lookup providerId
    let available : List ProviderCredentialRecord := credentials.values.filter fun credential =>
      providerCredentialIsUsable env credential health now
    let fallback := ((activeId.bind credentials.lookup).filter (·.status != "disabled")).or
      (credentials.values.find? (·.status != "disabled"))
    let selected : Option ProviderCredentialRecord :=
      match inner.providerCredentialPoolMode providerId with
      | "manual" => fallback
      | "round_robin" => (roundRobinProviderCredential available activeId).or available.head?
      | _ => (activeId.bind fun id => available.find? fun credential => credential.id == id).or
          available.head?
    match selected with
    | none => (none, inner)
    | some credential =>
      if credential.status = "disabled" then (some credential, inner)
      else (some credential, { inner with activeProviderCredentials :=
        inner.activeProviderCredentials.insert providerId credential.id })

/-- What a selected credential replaces in a provider's configuration. -/
def applyCredential (record : ProviderCredentialRecord) (provider : ProviderConfig) :
    ProviderConfig :=
  { provider with
    apiKeyEnv := some record.apiKeyEnv
    apiKey := secret env record.apiKeyEnv
    baseUrl := record.baseUrl.getD provider.baseUrl }

/-- `apply_selected_provider_credential_for_request`: the credential's identifier and the
provider configuration to send with. -/
def applySelectedProviderCredentialForRequest (inner : ControlInner) (providerId : String)
    (provider : ProviderConfig) (now : ℕ) :
    Except AppError (Option String × ProviderConfig) :=
  let hasPool := (inner.providerCredentials.lookup providerId).any fun credentials =>
    !credentials.entries.isEmpty
  let poolMode := inner.providerCredentialPoolMode providerId
  match (inner.selectProviderCredential env providerId now).1 with
  | none =>
    if hasPool && poolMode != "manual" then
      .error (.notReady ("provider " ++ providerId ++ " has no usable credential in " ++
        poolMode ++ " pool mode"))
    else .ok (none, provider)
  | some record => .ok (some record.id, applyCredential env record provider)

def hasUsableProviderCredential (inner : ControlInner) (providerId : String) (now : ℕ) : Bool :=
  (inner.providerCredentials.lookup providerId).any fun credentials =>
    credentials.values.any fun credential =>
      providerCredentialIsUsable env credential (inner.providerCredentialHealth.lookup providerId)
        now

def providerInCooldown (inner : ControlInner) (providerId : String) (now : ℕ) : Bool :=
  (inner.providerHealth.lookup providerId).any fun health =>
    health.cooldownUntilMs.any (now < ·) &&
      !(inner.providerCredentialPoolMode providerId != "manual" &&
        shouldRotateProviderCredential
          (providerFailureKind health.lastStatusCode health.lastError) &&
        inner.hasUsableProviderCredential env providerId now)

end

end ControlInner

end RouteSmith.Model
