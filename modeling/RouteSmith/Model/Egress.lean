import RouteSmith.Model.Inference

/-! # Where a request is sent

The path of `handle_inference` from the project's policy to the attempt loop, and the
`count_tokens` endpoint, with the providers the client's request is sent to on the way.
-/

namespace RouteSmith.Model

open Numeric Text

/-! ## Context admission -/

def showU64 (n : U64) : String := toString n.val

def validateOutputBudget (requestedModel : String) (outputTokens : U64)
    (admission : TokenCountingConfig) : Except AppError Unit :=
  let modelLimit := admission.modelMaxOutputTokens.lookup requestedModel
  match modelLimit.or admission.maxOutputTokens with
  | none => .ok ()
  | some limit =>
    if limit.val < outputTokens.val then
      let scope := if modelLimit.isSome then "logical model `" ++ requestedModel ++ "`"
        else "selected provider"
      .error (.invalidRequest ("output admission rejected request: max_output_tokens=" ++
        showU64 outputTokens ++ " exceeds configured limit=" ++ showU64 limit ++ " for " ++ scope ++
        "; reduce max_tokens"))
    else .ok ()

def recommendedInputLimit (requestedModel : String) (admission : TokenCountingConfig) :
    Option U64 :=
  (admission.modelRecommendedInputTokens.lookup requestedModel).or
    admission.recommendedReasoningInputTokens

def validateContextBudget (inputTokens outputTokens contextTokens : U64)
    (recommendedInputTokens : Option U64) (thinkingDisabled : Bool) : Except AppError Unit :=
  let requestedTotal := inputTokens + outputTokens
  if contextTokens.val < requestedTotal.val then
    .error (.invalidRequest ("context admission rejected request: input_tokens=" ++
      showU64 inputTokens ++ " + max_output_tokens=" ++ showU64 outputTokens ++
      " exceeds context_tokens=" ++ showU64 contextTokens ++
      "; reduce input or max_tokens by at least " ++
      toString (requestedTotal.val - contextTokens.val) ++
      " tokens; input is never silently truncated"))
  else
    match recommendedInputTokens with
    | some recommended =>
      if !thinkingDisabled ∧ recommended.val < inputTokens.val then
        .error (.invalidRequest ("reasoning context admission rejected request: input_tokens=" ++
          showU64 inputTokens ++ " exceeds recommended_reasoning_input_tokens=" ++
          showU64 recommended ++ "; reduce input by at least " ++
          toString (inputTokens.val - recommended.val) ++
          " tokens or explicitly disable thinking for a non-reasoning task"))
      else .ok ()
    | none => .ok ()

/-- What token counting is answered: by the control plane, by the checks of the base URL and of
the key, and by the provider. -/
structure CountingSurroundings where
  control : ControlInner
  now : ℕ
  validateProvider : Except AppError Unit
  inputTokens : Except AppError U64

section

variable (env urlHost : String → Option String)

/-- The provider with the credential that is selected for it now. -/
def withSelectedCredential (control : ControlInner) (now : ℕ) (resolved : ResolvedProvider) :
    Except AppError ResolvedProvider :=
  (control.applySelectedProviderCredentialForRequest env resolved.providerId resolved.provider
    now).map fun (_, provider) => { resolved with provider := provider }

/-- The first part of `enforce_context_admission`: the context size to enforce and the provider
that is asked to count, if any. -/
def contextCounting (exchange : ExchangeRequest) (io : CountingSurroundings)
    (resolved : ResolvedProvider) : Except AppError (Option (U64 × ResolvedProvider)) := do
  let admission := resolved.provider.tokenCounting
  validateOutputBudget exchange.requestedModel exchange.estimatedOutputTokens admission
  match admission.contextTokens with
  | none => return none
  | some contextTokens =>
    -- chat completions have no lossless body for the counting endpoint
    if !exchange.anthropicClient then return none
    else if admission.mode ≠ .anthropic then
      .error (.config ("provider `" ++ resolved.providerId ++
        "` context admission requires exact Anthropic token counting"))
    else
      let counting ← withSelectedCredential env io.control io.now resolved
      io.validateProvider
      return some (contextTokens, counting)

def toolRepairContextReserve : U64 := .ofNat _ 256

/-- The second part of `enforce_context_admission`, once the tokens are counted. -/
def contextVerdict (exchange : ExchangeRequest) (resolved : ResolvedProvider)
    (contextTokens inputTokens : U64) : Except AppError Unit :=
  let repairReserve :=
    if repairEnabled exchange resolved && exchange.usesTools then toolRepairContextReserve else 0
  validateContextBudget inputTokens (exchange.estimatedOutputTokens + repairReserve) contextTokens
    (recommendedInputLimit exchange.requestedModel resolved.provider.tokenCounting)
    exchange.thinkingDisabled

/-- `enforce_context_admission`: its verdict, and the provider it sent the request to. -/
def enforceContextAdmission (exchange : ExchangeRequest) (io : CountingSurroundings)
    (resolved : ResolvedProvider) : Except AppError Unit × List ResolvedProvider :=
  match contextCounting env exchange io resolved with
  | .error error => (.error error, [])
  | .ok none => (.ok (), [])
  | .ok (some (contextTokens, counting)) =>
    (io.inputTokens >>= contextVerdict exchange resolved contextTokens, [counting])

/-! ## Inference -/

/-- The attempts a policy leaves of a plan, in the order of the mode, and the first of them. -/
def authorizeAttempts (policy : ProjectPolicy) (mode : HybridMode)
    (attempts : List ResolvedProvider) :
    Except AppError (ResolvedProvider × List ResolvedProvider) :=
  let ordered := orderAttempts urlHost attempts mode
  match ordered.filter fun attempt => (policy.enforceAttempt urlHost attempt).isOk with
  | first :: rest => .ok (first, first :: rest)
  | [] =>
    let refusals := ordered.filterMap fun attempt =>
      match policy.enforceAttempt urlHost attempt with
      | .ok () => none
      | .error error => some error
    .error (refusals.head?.getD (.providerNotFound
      ("no " ++ mode.asStr ++ " provider is authorized for this project")))

/-- What `handle_inference` reads and is answered before and during its attempt loop. -/
structure InferenceSurroundings where
  policy : ProjectPolicy
  classification : DataClassification
  requestedMode : Option HybridMode
  plan : Except AppError (List ResolvedProvider)
  checkRateLimit : Except AppError Unit
  counting : CountingSurroundings
  streamPermit : Except AppError Unit
  beginRequest : Except AppError Unit
  answers : ℕ → Surroundings

/-- The attempts a request may use, and the first of them. -/
def authorizedAttempts (io : InferenceSurroundings) :
    Except AppError (ResolvedProvider × List ResolvedProvider) := do
  let mode ← io.policy.effectiveMode io.requestedMode io.classification
  let plan ← io.plan
  let authorized ← authorizeAttempts urlHost io.policy mode plan
  io.checkRateLimit
  return authorized

/-- What must succeed between the authorization and the attempt loop. -/
def admitInference (exchange : ExchangeRequest) (io : InferenceSurroundings)
    (resolved : ResolvedProvider) : Except AppError Unit := do
  (enforceContextAdmission env exchange io.counting resolved).1
  if exchange.stream then io.streamPermit
  io.beginRequest

/-- The providers that `handle_inference` sends the request to, in order. -/
def inferenceSends (exchange : ExchangeRequest) (io : InferenceSurroundings) :
    List ResolvedProvider :=
  match authorizedAttempts urlHost io with
  | .error _ => []
  | .ok (resolved, authorized) =>
    (enforceContextAdmission env exchange io.counting resolved).2 ++
      match admitInference env exchange io resolved with
      | .error _ => []
      | .ok () =>
        match attemptLoop env urlHost exchange io.answers authorized with
        | none => []
        | some st => st.sent.map (·.resolved)

/-! ## Token counting -/

/-- What `count_tokens` reads and is answered. -/
structure CountTokensSurroundings where
  policy : ProjectPolicy
  classification : DataClassification
  requestedMode : Option HybridMode
  resolved : Except AppError ResolvedProvider
  checkRateLimit : Except AppError Unit
  checkQuotas : Except AppError Unit
  checkUsagePolicy : Except AppError Unit
  control : ControlInner
  now : ℕ
  validateProvider : Except AppError Unit
  checkProviderAttempt : Except AppError Unit

/-- The provider that `count_tokens` sends the request to. -/
def countTokens (io : CountTokensSurroundings) : Except AppError ResolvedProvider := do
  let resolved ← io.resolved
  let mode ← io.policy.effectiveMode io.requestedMode io.classification
  io.policy.enforceAttempt urlHost resolved
  if mode = .localStrict ∧ ProviderBoundary.forResolved urlHost resolved = .cloud then
    .error (.forbidden "local_strict token counting cannot use a cloud provider")
  if resolved.provider.tokenCounting.mode ≠ .anthropic then
    .error (.invalidRequest ("provider `" ++ resolved.providerId ++
      "` does not enable Anthropic token counting"))
  io.checkRateLimit
  io.checkQuotas
  io.checkUsagePolicy
  let resolved ← withSelectedCredential env io.control io.now resolved
  io.validateProvider
  io.checkProviderAttempt
  return resolved

end

end RouteSmith.Model
