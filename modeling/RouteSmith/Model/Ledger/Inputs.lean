import RouteSmith.Model.Ledger.Schema
import RouteSmith.Text.IpAddr

/-! # Ledger inputs and their validation -/

namespace RouteSmith.Model.Ledger

open Numeric Text

structure LedgerRequest where
  ledgerId : String
  tenant : TenantKey
  leaseOwner : String
  deriving DecidableEq

structure LedgerAttempt where
  attemptId : String
  requestLedgerId : String
  reservationId : String
  tenant : TenantKey
  leaseOwner : String
  deriving DecidableEq

structure LedgerOutcome where
  state : TerminalState
  statusCode : ℕ
  terminalReason : String
  errorMessage : Option String
  estimate : UsageEstimate
  billingMode : String
  chargeable : Bool
  latencyMs : ℤ
  firstByteLatencyMs : Option ℤ
  toolOutcome : String
  toolRepairAttempted : Bool
  toolRepairRecovered : Bool
  retryCount : ℤ
  fallbackFromProvider : Option String
  deriving DecidableEq

/-- What the gateway reports about a finished request; durations in milliseconds. -/
structure UsageEventInput where
  attemptId : Option String
  resolvedModel : String
  provider : String
  protocol : String
  toolOutcome : String
  toolRepairAttempted : Bool
  toolRepairRecovered : Bool
  success : Bool
  statusCode : ℕ
  terminalReason : String
  estimate : UsageEstimate
  modelPricing : Option ModelPricing
  billingMode : String
  chargeable : Bool
  latency : ℕ
  firstByteLatency : Option ℕ
  retryCount : ℕ
  fallbackFromProvider : Option String
  errorMessage : Option String
  deriving DecidableEq

def durationMillisI64 (millis : ℕ) : ℤ := min millis (2 ^ 63 - 1)

namespace LedgerOutcome

def providerAttempt (success : Bool) (statusCode : ℕ) (errorMessage : Option String)
    (estimate : UsageEstimate) (billingMode : String) (latency : ℕ) : LedgerOutcome where
  state := if success then .completed else .failed
  statusCode := statusCode
  terminalReason := if success then "completed" else "failed_before_response"
  errorMessage := errorMessage
  estimate := estimate
  billingMode := billingMode
  chargeable := true
  latencyMs := durationMillisI64 latency
  firstByteLatencyMs := none
  toolOutcome := "not_requested"
  toolRepairAttempted := false
  toolRepairRecovered := false
  retryCount := 0
  fallbackFromProvider := none

def fromUsageWithLatency (usage : UsageEventInput) (latency : ℕ) : LedgerOutcome where
  state :=
    if usage.success then .completed
    else if contains usage.terminalReason "cancel" then .cancelled
    else .failed
  statusCode := usage.statusCode
  terminalReason := usage.terminalReason
  errorMessage := usage.errorMessage
  estimate := usage.estimate
  billingMode := usage.billingMode
  chargeable := usage.chargeable
  latencyMs := durationMillisI64 latency
  firstByteLatencyMs := usage.firstByteLatency.map durationMillisI64
  toolOutcome := usage.toolOutcome
  toolRepairAttempted := usage.toolRepairAttempted
  toolRepairRecovered := usage.toolRepairRecovered
  retryCount := min usage.retryCount (2 ^ 31 - 1)
  fallbackFromProvider := usage.fallbackFromProvider

def fromUsage (usage : UsageEventInput) : LedgerOutcome :=
  fromUsageWithLatency usage usage.latency

/-- `outcome_evidence_source`. -/
def evidenceSource (outcome : LedgerOutcome) : String :=
  if outcome.billingMode = "upstream-returned" then "provider-usage" else "local-estimate"

end LedgerOutcome

/-! ## Errors -/

def idempotencyConflict (sameRequest terminal : Bool) : AppError :=
  .idempotencyConflict <|
    match sameRequest, terminal with
    | true, false => "the original request is still in progress"
    | true, true =>
      "the original request is terminal; response replay is not available in this release"
    | false, _ => "the key was already used with a different request body"

def missingScopedRecord : AppError :=
  .database "ledger record does not exist in the supplied tenant and lease scope"

/-! ## Request metadata -/

def validateMetadataText (field : String) (value : Option String) (required : Bool) :
    Except AppError Unit :=
  if required && value.all isEmpty then
    .error (.invalidRequest (field ++ " metadata is required"))
  else if value.any fun value => 256 < len value || hasControl value then
    .error (.invalidRequest (field ++ " metadata must not exceed 256 non-control bytes"))
  else .ok ()

def validateDecisionText (field value : String) (maxLen : ℕ) : Except AppError Unit :=
  if boundedText maxLen value then .ok ()
  else .error (.invalidRequest
    ("routing " ++ field ++ " must contain 1-" ++ toString maxLen ++ " non-control bytes"))

/-- The bounds on the remaining evidence of a routing decision. -/
def decisionInBounds (d : RoutingDecisionEvidence) : Bool :=
  d.groupId.all (boundedText 80) && 1 ≤ d.candidateCount && d.candidateCount ≤ 256 &&
  d.selectedScore.isFinite && scoreInBounds d.selectedScore &&
  d.recommendedScore.isFinite && scoreInBounds d.recommendedScore &&
  d.reasonCodes.length ≤ 16 && d.reasonCodes.all (boundedText 80)

def validateRoutingDecision (d : RoutingDecisionEvidence) : Except AppError Unit := do
  validateDecisionText "decisionId" d.decisionId 80
  validateDecisionText "routingProfile" d.profile 32
  validateDecisionText "routingMode" d.mode 32
  validateDecisionText "policyVersion" d.policyVersion 64
  validateDecisionText "selectedProvider" d.selectedProvider 80
  validateDecisionText "selectedModel" d.selectedModel 240
  validateDecisionText "recommendedProvider" d.recommendedProvider 80
  validateDecisionText "recommendedModel" d.recommendedModel 240
  if decisionInBounds d then .ok ()
  else .error (.invalidRequest "routing decision evidence is outside supported bounds")

def validateRequestMetadata (m : LedgerRequestMetadata) : Except AppError Unit := do
  validateMetadataText "username" (some m.username) true
  validateMetadataText "apiKeyId" m.apiKeyId false
  validateMetadataText "apiKeyName" m.apiKeyName false
  validateMetadataText "apiKeyGroup" m.apiKeyGroup false
  validateMetadataText "teamId" m.teamId false
  validateMetadataText "teamName" m.teamName false
  if m.clientIp.any fun ip => (IpAddr.parse ip).isNone then
    .error (.invalidRequest "client IP metadata must be an IPv4 or IPv6 address")
  else
    match m.routingDecision with
    | none => .ok ()
    | some decision => validateRoutingDecision decision

/-! ## Budget inputs -/

def validatedTenantId (field value : String) : Except AppError String :=
  let value := trim value
  if boundedText 128 value then .ok value
  else .error (.invalidRequest ("budget " ++ field ++ " must contain 1-128 non-control bytes"))

def tenantFromParts (organizationId projectId environmentId : String) :
    Except AppError TenantKey := do
  let organizationId ← validatedTenantId "organizationId" organizationId
  let projectId ← validatedTenantId "projectId" projectId
  let environmentId ← validatedTenantId "environmentId" environmentId
  return ⟨organizationId, projectId, environmentId⟩

def validateEvidenceText (field value : String) (maxLen : ℕ) : Except AppError Unit :=
  if boundedText maxLen (trim value) then .ok ()
  else .error (.invalidRequest ("budget adjustment " ++ field ++ " must contain 1-" ++
    toString maxLen ++ " non-control bytes"))

structure EnterpriseBudgetUpdate where
  organizationId : String
  projectId : String
  environmentId : String
  unlimited : Bool
  limitMicrounits : Option ℤ
  deriving DecidableEq

def EnterpriseBudgetUpdate.tenant (input : EnterpriseBudgetUpdate) : Except AppError TenantKey :=
  tenantFromParts input.organizationId input.projectId input.environmentId

def EnterpriseBudgetUpdate.validatedLimit (input : EnterpriseBudgetUpdate) :
    Except AppError (Option ℤ) :=
  match input.unlimited, input.limitMicrounits with
  | true, none => .ok none
  | true, some _ =>
    .error (.invalidRequest "unlimited budget cannot also provide limitMicrounits")
  | false, limit =>
    if limit.any (0 ≤ ·) then .ok limit
    else .error (.invalidRequest
      "a non-negative limitMicrounits value is required unless unlimited is true")

structure EnterpriseBudgetAdjustmentInput where
  organizationId : String
  projectId : String
  environmentId : String
  deltaMicrounits : ℤ
  reason : String
  evidenceReference : String
  deriving DecidableEq

def EnterpriseBudgetAdjustmentInput.tenant (input : EnterpriseBudgetAdjustmentInput) :
    Except AppError TenantKey :=
  tenantFromParts input.organizationId input.projectId input.environmentId

def EnterpriseBudgetAdjustmentInput.validate (input : EnterpriseBudgetAdjustmentInput) :
    Except AppError Unit := do
  if input.deltaMicrounits = 0 then
    .error (.invalidRequest "budget adjustment deltaMicrounits must not be zero")
  else
    validateEvidenceText "reason" input.reason 500
    validateEvidenceText "evidenceReference" input.evidenceReference 500

end RouteSmith.Model.Ledger
