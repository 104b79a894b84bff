import RouteSmith.Model.Control

/-! # Effective configuration and route plans

How the control plane's settings are merged into the reviewed configuration, and how a route
plan is made from the result.
-/

namespace RouteSmith.Model

open Store Text

/-! ## Merging the control plane into the configuration -/

def parseProviderProtocol (value : String) : Except AppError ProviderProtocol :=
  match trim value with
  | "anthropic" => .ok .anthropic
  | "openai-compat" | "openai_compat" | "openaiCompatible" => .ok .openaiCompat
  | _ => .error (.invalidRequest "protocol must be anthropic or openai-compat")

def parseMaxTokensField (value : String) : Except AppError MaxTokensField :=
  match trim value with
  | "max_completion_tokens" | "max-completion-tokens" => .ok .maxCompletionTokens
  | "max_tokens" | "max-tokens" => .ok .maxTokens
  | "both" => .ok .both
  | _ => .error (.invalidRequest
    "maxTokensField must be max_completion_tokens, max_tokens, or both")

def parseFidelityMode (value : String) : Except AppError FidelityMode :=
  match trim value with
  | "strict" => .ok .strict
  | "best_effort" | "best-effort" => .ok .bestEffort
  | "stability" => .ok .stability
  | _ => .error (.invalidRequest "fidelityMode must be strict, best_effort, or stability")

/-- The part of the configuration that providers are looked up in. -/
structure Catalog where
  providers : NameMap ProviderConfig
  providerOrder : List String

def Catalog.remove (catalog : Catalog) (ids : List String) : Catalog where
  providers := catalog.providers.eraseEach ids
  providerOrder := catalog.providerOrder.filter fun id => !ids.contains id

section

variable (env : String → Option String)

def providerRecordToConfig (record : ProviderOverrideRecord) : Except AppError ProviderConfig := do
  let protocol ← parseProviderProtocol record.protocol
  let maxTokensField ← parseMaxTokensField record.maxTokensField
  let fidelityMode ← parseFidelityMode record.fidelityMode
  return {
    protocol := protocol
    baseUrl := record.baseUrl
    apiKeyEnv := record.apiKeyEnv
    apiKey := record.apiKeyEnv.bind env
    apiKeyRequired := record.apiKeyRequired
    defaultModel := record.defaultModel
    models := record.models
    modelPrefixes := record.modelPrefixes
    passthroughUnknownModels := record.passthroughUnknownModels
    maxTokensField := maxTokensField
    deduplicateStreamText := record.deduplicateStreamText
    bufferStreamText := record.bufferStreamText
    fidelityMode := fidelityMode
    toolUse := record.toolUse
    pricing := record.pricing }

/-- The configuration of an override, if it stays within what was approved. -/
def approvedOverride (approved : ProviderConfig) (record : ProviderOverrideRecord) :
    Option ProviderConfig :=
  match providerRecordToConfig env record with
  | .error _ => none
  | .ok provider =>
    if provider.protocol = approved.protocol ∧ provider.baseUrl = approved.baseUrl ∧
        (∀ model ∈ provider.models, model ∈ approved.models) ∧
        provider.passthroughUnknownModels = approved.passthroughUnknownModels
    then some provider else none

def applyProviderOverride (approved : NameMap ProviderConfig) (deleted : List String)
    (catalog : Catalog) (entry : Σ _ : String, ProviderOverrideRecord) : Catalog :=
  if entry.1 ∈ deleted then catalog
  else
    match (approved.lookup entry.1).bind fun approved => approvedOverride env approved entry.2 with
    | none => catalog
    | some provider =>
      { providers := catalog.providers.insert entry.1 provider
        providerOrder :=
          if entry.1 ∈ catalog.providerOrder then catalog.providerOrder
          else catalog.providerOrder ++ [entry.1] }

/-- Models a provider test discovered; only approved ones are added. -/
def addDiscoveredModels (approved : Option ProviderConfig) (record : ProviderTestRecord)
    (provider : ProviderConfig) : ProviderConfig :=
  match approved with
  | none => provider
  | some approved =>
    let models := record.discoveredModels.foldl (fun models model =>
      if model ∈ approved.models ∧ model ∉ models then models ++ [model] else models)
      provider.models
    if record.success then { provider with models := models } else provider

def applyActiveCredential (credentials : Option (NameMap ProviderCredentialRecord))
    (credentialId : String) (provider : ProviderConfig) : ProviderConfig :=
  match credentials.bind (·.lookup credentialId) with
  | none => provider
  | some record =>
    if record.status = "disabled" then provider
    else { provider with
      apiKeyEnv := some record.apiKeyEnv
      apiKey := env record.apiKeyEnv
      baseUrl := record.baseUrl.getD provider.baseUrl }

def applyModelOverride (provider : ProviderConfig)
    (entry : Σ _ : String, ProviderModelOverrideRecord) : ProviderConfig :=
  if entry.2.status = "disabled" then
    let models := provider.models.filter (· ≠ entry.1)
    { provider with
      models := models
      defaultModel :=
        if provider.defaultModel = entry.1 then models.head?.getD provider.defaultModel
        else provider.defaultModel }
  else if entry.1 ∈ provider.models then provider
  else { provider with models := provider.models ++ [entry.1] }

/-- `apply_provider_model_overrides` on one provider. -/
def applyModelOverrides (overrides : NameMap ProviderModelOverrideRecord)
    (provider : ProviderConfig) : ProviderConfig :=
  overrides.entries.foldl applyModelOverride provider

/-- The last word of the reviewed catalog: only its models, no prefixes, no passthrough. -/
def restrictToApproved (approved provider : ProviderConfig) : ProviderConfig :=
  let models := provider.models.filter (· ∈ approved.models)
  { provider with
    models := models
    defaultModel :=
      if provider.defaultModel ∈ models then provider.defaultModel else approved.defaultModel
    modelPrefixes := []
    passthroughUnknownModels := false }

def effectiveAliases (base : NameMap String) (routeConfig : RouteConfigRecord) : NameMap String :=
  routeConfig.aliases.entries.foldl (fun aliases entry => aliases.insert entry.1 entry.2)
    (base.eraseEach routeConfig.deletedAliases)

def normalizeProviderOrder (providers : NameMap ProviderConfig) (order : List String) :
    List String :=
  let known := (order.filter (· ∈ providers)).eraseDups
  known ++ (providers.keys.filter (· ∉ known)).insertionSort (· ≤ ·)

/-- The providers of the merged configuration, and the order they have before it is
normalized. -/
def mergedCatalog (base : AppConfig) (control : ControlInner) (includeDisabled : Bool) : Catalog :=
  let approved := base.providers
  let catalog := Catalog.remove ⟨approved, base.providerOrder⟩ control.deletedProviders
  let catalog := control.providerOverrides.entries.foldl
    (applyProviderOverride env approved control.deletedProviders) catalog
  let catalog := if includeDisabled then catalog else catalog.remove control.disabledProviders
  let providers := catalog.providers.mapValues fun id provider =>
    (control.providerTests.lookup id).elim provider fun record =>
      addDiscoveredModels (approved.lookup id) record provider
  let providers := providers.mapValues fun id provider =>
    (control.activeProviderCredentials.lookup id).elim provider fun credentialId =>
      applyActiveCredential env (control.providerCredentials.lookup id) credentialId provider
  let providers := providers.adjustEach control.providerModelOverrides applyModelOverrides
  { providers := providers.adjustEach approved restrictToApproved
    providerOrder := catalog.providerOrder }

def mergedConfig (base : AppConfig) (control : ControlInner) (includeDisabled : Bool) :
    AppConfig :=
  let catalog := mergedCatalog env base control includeDisabled
  let providers := catalog.providers
  let defaultProvider :=
    (control.routeConfig.defaultProvider.filter (· ∈ providers)).getD base.defaultProvider
  let configured := (control.routeConfig.providerOrder.getD []).filter (· ∈ providers)
  let order := normalizeProviderOrder providers
    (if configured.isEmpty then catalog.providerOrder else configured)
  { base with
    providers := providers
    aliases := effectiveAliases base.aliases control.routeConfig
    providerOrder := order
    defaultProvider :=
      if defaultProvider ∈ providers then defaultProvider else order.head?.getD defaultProvider }

def effectiveConfig (base : AppConfig) (control : ControlInner) : AppConfig :=
  mergedConfig env base control false

end

/-! ## Route plans -/

structure ScoredCandidate where
  resolved : ResolvedProvider
  quality : Numeric.F64
  latencyHintMs : ℕ
  originalIndex : ℕ
  deriving DecidableEq

/-- What a plan is made from. The checks of the request against a provider, the quotas of the
caller, the order of the scores and the bucket of the activation key are inputs. -/
structure RoutingRequest where
  config : AppConfig
  control : ControlInner
  now : ℕ
  requestedModel : String
  validateProvider : ResolvedProvider → Except AppError Unit
  checkQuotas : (model providerId : String) → Except AppError Unit
  scoresAbove : ScoredCandidate → ScoredCandidate → Bool
  activationBucket : ℕ

def AppConfig.smartRouteGroup (config : AppConfig) (requestedModel : String) :
    Option (String × RouteGroupConfig) :=
  (config.smartRouting.groups.entries.find? fun entry =>
    entry.2.aliases.contains (trim requestedModel)).map fun entry => (entry.1, entry.2)

def isExplicitProviderSelector (config : AppConfig) (requestedModel : String) : Bool :=
  (splitOnce ':' requestedModel).any fun (providerId, model) =>
    !isEmpty model && providerId ∈ config.providers

def fallbackModelForProvider (provider : ProviderConfig) (requestedModel primaryModel : String) :
    Option String :=
  [requestedModel, primaryModel].find? fun model =>
    provider.models.contains model || provider.modelPrefixes.any (startsWith model) ||
      provider.passthroughUnknownModels

inductive Rejection where
  | disabled
  | missingProvider
  | credential
  | providerCooldown
  | capability
  deriving DecidableEq

section

variable (env : String → Option String)

def ControlInner.providerCredentialRouteAvailable (inner : ControlInner) (providerId : String)
    (now : ℕ) : Option Bool :=
  match inner.providerCredentials.lookup providerId with
  | none => none
  | some credentials =>
    if credentials.entries.isEmpty then none
    else if inner.providerCredentialPoolMode providerId ≠ "manual" then
      some (inner.hasUsableProviderCredential env providerId now)
    else
      let selected := (((inner.activeProviderCredentials.lookup providerId).bind
        credentials.lookup).filter (·.status != "disabled")).or
          (credentials.values.find? (·.status != "disabled"))
      some (selected.any fun credential =>
        (ControlInner.secret env credential.apiKeyEnv).isSome)

/-- The attempts on other providers that list the requested or the primary model. -/
def fallbackAttempts (control : ControlInner) (now : ℕ) (config : AppConfig)
    (requestedModel : String) (primary : ResolvedProvider) : List ResolvedProvider :=
  config.providerOrder.filterMap fun providerId =>
    if providerId = primary.providerId || control.providerInCooldown env providerId now then none
    else do
      let provider ← config.providers.lookup providerId
      let model ← fallbackModelForProvider provider requestedModel primary.model
      return ⟨providerId, provider, model⟩

def staticRouteAttempts (control : ControlInner) (now : ℕ) (config : AppConfig)
    (requestedModel : String) (primary : ResolvedProvider) : List ResolvedProvider :=
  if isExplicitProviderSelector config requestedModel then [primary]
  else
    let first :=
      if control.providerInCooldown env primary.providerId now then [] else [primary]
    let attempts := first ++ fallbackAttempts env control now config requestedModel primary
    if attempts.isEmpty then [primary] else attempts

def staticPlan (request : RoutingRequest) : Except AppError (List ResolvedProvider) := do
  let primary ← request.config.resolve request.requestedModel
  return staticRouteAttempts env request.control request.now request.config
    request.requestedModel primary

def RoutingRequest.credentialAvailable (request : RoutingRequest) (providerId : String)
    (provider : ProviderConfig) : Bool :=
  (request.control.providerCredentialRouteAvailable env providerId request.now).getD
    (!provider.apiKeyRequired || provider.apiKey.isSome)

def RoutingRequest.inCooldown (request : RoutingRequest) (providerId : String) : Bool :=
  request.control.providerInCooldown env providerId request.now

/-- Why a candidate of a group is passed over, or the provider it stands for. -/
def candidateRejection (request : RoutingRequest) (candidate : RouteCandidateConfig)
    (filterCooldown : Bool) : Except AppError (Except Rejection ResolvedProvider) :=
  if !candidate.enabled then .ok (.error .disabled)
  else
    match request.config.providers.lookup candidate.provider with
    | none => .ok (.error .missingProvider)
    | some provider =>
      let resolved : ResolvedProvider := ⟨candidate.provider, provider, candidate.model⟩
      if !request.credentialAvailable env candidate.provider provider then
        .ok (.error .credential)
      else if filterCooldown && request.inCooldown env candidate.provider then
        .ok (.error .providerCooldown)
      else if !(request.validateProvider resolved).isOk then .ok (.error .capability)
      else (request.checkQuotas candidate.model candidate.provider).map fun _ => .ok resolved

/-- `collect_eligible_candidates`: each candidate with its verdict. -/
def candidateVerdicts (request : RoutingRequest) (candidates : List RouteCandidateConfig)
    (filterCooldown : Bool) : List (Except AppError (Except Rejection ScoredCandidate)) :=
  candidates.zipIdx.map fun (candidate, originalIndex) =>
    (candidateRejection env request candidate filterCooldown).map fun verdict =>
      verdict.map fun resolved =>
        ⟨resolved, candidate.quality, candidate.latencyHintMs, originalIndex⟩

end

def eligibleOf (verdicts : List (Except AppError (Except Rejection ScoredCandidate))) :
    List ScoredCandidate :=
  verdicts.filterMap fun verdict =>
    match verdict with
    | .ok (.ok candidate) => some candidate
    | _ => none

def rejectionCount (verdicts : List (Except AppError (Except Rejection ScoredCandidate)))
    (rejection : Rejection) : ℕ :=
  verdicts.countP fun verdict =>
    match verdict with
    | .ok (.error found) => found = rejection
    | _ => false

def gateError (verdicts : List (Except AppError (Except Rejection ScoredCandidate))) :
    Option AppError :=
  verdicts.findSome? fun verdict =>
    match verdict with
    | .error error => some error
    | .ok _ => none

section

variable (env : String → Option String)

/-- The verdicts that count: where every candidate is passed over and some of them only for
being in cooldown, the cooldown is ignored. -/
def groupVerdicts (request : RoutingRequest) (candidates : List RouteCandidateConfig) :
    List (Except AppError (Except Rejection ScoredCandidate)) :=
  let verdicts := candidateVerdicts env request candidates true
  if (eligibleOf verdicts).isEmpty ∧ 0 < rejectionCount verdicts .providerCooldown then
    candidateVerdicts env request candidates false
  else verdicts

/-- The higher score first, and candidates of equal scores in the order of the group. -/
def RoutingRequest.before (request : RoutingRequest) (left right : ScoredCandidate) : Prop :=
  request.scoresAbove left right = true ∨
    (request.scoresAbove right left = false ∧ left.originalIndex ≤ right.originalIndex)

instance (request : RoutingRequest) : DecidableRel request.before := fun left right =>
  inferInstanceAs (Decidable (request.scoresAbove left right = true ∨
    (request.scoresAbove right left = false ∧ left.originalIndex ≤ right.originalIndex)))

def groupPlan (request : RoutingRequest) (groupId : String) (group : RouteGroupConfig) :
    Except AppError (List ResolvedProvider) :=
  let verdicts := groupVerdicts env request group.candidates
  let eligible := eligibleOf verdicts
  if eligible.isEmpty then
    match gateError verdicts with
    | some error => .error error
    | none =>
      let credential := rejectionCount verdicts .credential
      if 0 < credential ∧
          credential + rejectionCount verdicts .disabled = group.candidates.length then
        .error (.notReady
          ("smart route group `" ++ groupId ++ "` has no credential-ready candidate"))
      else
        .error (.providerNotFound
          ("smart route group `" ++ groupId ++ "` has no eligible candidate"))
  else
    let active := request.config.smartRouting.mode = .active ∧
      request.activationBucket < request.config.smartRouting.activationPercent
    .ok ((if active then eligible.insertionSort request.before else eligible).map (·.resolved))

/-- `SmartRouter::plan`: the attempts of the route plan. -/
def plan (request : RoutingRequest) : Except AppError (List ResolvedProvider) :=
  match request.config.smartRouteGroup request.requestedModel with
  | none => staticPlan env request
  | some (groupId, group) => groupPlan env request groupId group

end

end RouteSmith.Model
