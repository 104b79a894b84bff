import RouteSmith.Model.Error
import RouteSmith.Store.NameMap

/-! # Gateway configuration and model resolution -/

namespace RouteSmith.Model

open Numeric Store Text

/-! ## Providers -/

inductive ProviderProtocol where
  | anthropic
  | openaiCompat
  deriving DecidableEq

def providerProtocolValue : ProviderProtocol → String
  | .anthropic => "anthropic"
  | .openaiCompat => "openai-compat"

inductive TokenCountingMode where
  | none
  | anthropic
  deriving DecidableEq

structure TokenCountingConfig where
  mode : TokenCountingMode := .none
  contextTokens : Option U64 := none
  recommendedReasoningInputTokens : Option U64 := none
  modelRecommendedInputTokens : NameMap U64 := ∅
  maxOutputTokens : Option U64 := none
  modelMaxOutputTokens : NameMap U64 := ∅
  deriving DecidableEq

inductive ToolArgumentMode where
  | native
  | delta
  | cumulative
  | bestEffort
  deriving DecidableEq

inductive ToolResponseValidation where
  | bestEffort
  | strict
  deriving DecidableEq

structure ToolUseConfig where
  supported : Bool := true
  toolChoice : Bool := true
  parallelToolCalls : Bool := true
  streamingArguments : ToolArgumentMode := .delta
  responseValidation : ToolResponseValidation := .bestEffort
  repairInvalidArguments : Bool := false
  deriving DecidableEq

inductive MaxTokensField where
  | maxCompletionTokens
  | maxTokens
  | both
  deriving DecidableEq

inductive FidelityMode where
  | strict
  | bestEffort
  | stability
  deriving DecidableEq

structure ProviderConfig where
  protocol : ProviderProtocol
  baseUrl : String
  apiKeyEnv : Option String := none
  apiKey : Option String := none
  apiKeyRequired : Bool := false
  defaultModel : String
  models : List String := []
  modelPrefixes : List String := []
  passthroughUnknownModels : Bool := false
  maxTokensField : MaxTokensField := .maxCompletionTokens
  deduplicateStreamText : Bool := false
  bufferStreamText : Bool := false
  fidelityMode : FidelityMode := .bestEffort
  toolUse : ToolUseConfig := {}
  tokenCounting : TokenCountingConfig := {}
  pricing : Option ModelPricing := none
  deriving DecidableEq

structure ResolvedProvider where
  providerId : String
  provider : ProviderConfig
  model : String
  deriving DecidableEq

/-! ## Smart routing -/

inductive SmartRoutingMode where
  | off
  | shadow
  | active
  deriving DecidableEq

inductive RoutingProfile where
  | quality
  | balanced
  | economy
  | latency
  deriving DecidableEq

structure RouteCandidateConfig where
  provider : String
  model : String
  quality : F64 := .ofRat 0.8
  latencyHintMs : ℕ := 1000
  enabled : Bool := true
  deriving DecidableEq

structure RouteGroupConfig where
  aliases : List String := []
  defaultProfile : Option RoutingProfile := none
  candidates : List RouteCandidateConfig := []
  deriving DecidableEq

structure SmartRoutingConfig where
  mode : SmartRoutingMode := .off
  defaultProfile : RoutingProfile := .balanced
  activationPercent : ℕ := 0
  groups : NameMap RouteGroupConfig := ∅
  deriving DecidableEq

structure AppConfig where
  defaultProvider : String
  providerOrder : List String
  providers : NameMap ProviderConfig
  aliases : NameMap String := ∅
  smartRouting : SmartRoutingConfig := {}
  deriving DecidableEq

namespace AppConfig

/-! ## Resolution -/

def resolveForProvider (config : AppConfig) (providerId : String) (model : Option String) :
    Except AppError ResolvedProvider :=
  match config.providers.lookup providerId with
  | none => .error (.providerNotFound providerId)
  | some provider =>
    let model := (model.filter fun model => !isEmpty (trim model)).getD provider.defaultModel
    .ok ⟨providerId, provider, model⟩

def parseProviderModel (config : AppConfig) (value : String) : Option (String × String) := do
  let (providerId, model) ← splitOnce ':' value
  if providerId ∈ config.providers then some (providerId, trim model) else none

/-- The first provider, in the configured order, that accepts the model. -/
def findProvider (config : AppConfig) (accepts : ProviderConfig → Bool) :
    Option (String × ProviderConfig) :=
  config.providerOrder.findSome? fun id =>
    ((config.providers.lookup id).filter accepts).map fun provider => (id, provider)

def findProviderByExactModel (config : AppConfig) (model : String) :
    Option (String × ProviderConfig) :=
  config.findProvider fun provider => provider.models.contains model

def findProviderByModelPrefix (config : AppConfig) (model : String) :
    Option (String × ProviderConfig) :=
  config.findProvider fun provider => provider.modelPrefixes.any (startsWith model)

/-- `resolve_alias_target`, with `resolveInner` at the next depth. -/
def resolveAliasTarget (config : AppConfig) (modelAlias target : String)
    (resolveInner : String → Except AppError ResolvedProvider) :
    Except AppError ResolvedProvider :=
  match splitOnce ':' target with
  | some (providerId, model) =>
    if providerId ∈ config.providers then config.resolveForProvider providerId (some model)
    else .error (.providerNotFound providerId)
  | none =>
    match config.providers.lookup target with
    | some provider =>
      .ok ⟨target, provider,
        if provider.models.contains modelAlias then modelAlias else provider.defaultModel⟩
    | none => resolveInner target

/-- `resolve_inner`, with the number of alias steps that are left. -/
def resolveInner (config : AppConfig) : (left : ℕ) → String → Except AppError ResolvedProvider
  | 0, _ => .error (.invalidRequest "model alias chain is too deep or cyclic")
  | left + 1, requestedModel =>
    if isEmpty requestedModel then config.resolveForProvider config.defaultProvider none
    else match config.parseProviderModel requestedModel with
      | some (providerId, model) => config.resolveForProvider providerId (some model)
      | none =>
        match config.aliases.lookup requestedModel with
        | some target =>
          config.resolveAliasTarget requestedModel target (config.resolveInner left)
        | none =>
          match config.findProviderByExactModel requestedModel with
          | some (providerId, provider) => .ok ⟨providerId, provider, requestedModel⟩
          | none =>
            match config.findProviderByModelPrefix requestedModel with
            | some (providerId, provider) => .ok ⟨providerId, provider, requestedModel⟩
            | none =>
              match config.providers.lookup config.defaultProvider with
              | none => .error (.providerNotFound config.defaultProvider)
              | some provider =>
                .ok ⟨config.defaultProvider, provider,
                  if provider.passthroughUnknownModels then requestedModel
                  else provider.defaultModel⟩

def resolve (config : AppConfig) (requestedModel : String) :
    Except AppError ResolvedProvider :=
  config.resolveInner 9 (trim requestedModel)

end AppConfig

end RouteSmith.Model
