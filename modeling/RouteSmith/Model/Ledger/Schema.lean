import RouteSmith.Model.Error
import RouteSmith.Store.Txn

/-! # Ledger tables

The tables of the PostgreSQL ledger with their constraints. One key type covers all
tables; a unique index is a table of its own, from the indexed columns to the row.
Times are microseconds, amounts are microunits.
-/

namespace RouteSmith.Model.Ledger

open Numeric Text Store

structure TenantKey where
  organizationId : String
  projectId : String
  environmentId : String
  deriving DecidableEq

inductive RecordState where
  | started
  | completed
  | failed
  | cancelled
  deriving DecidableEq

/-- The states in which an outcome can leave a record. -/
inductive TerminalState where
  | completed
  | failed
  | cancelled
  deriving DecidableEq

def TerminalState.toRecordState : TerminalState → RecordState
  | completed => .completed
  | failed => .failed
  | cancelled => .cancelled

inductive ReservationState where
  | reserved
  | settled
  | released
  deriving DecidableEq

inductive EventType where
  | reservationCreated
  | settled
  | released
  | adjustment
  deriving DecidableEq

/-- The columns that request and attempt rows share. -/
structure Record where
  tenant : TenantKey
  leaseOwner : String
  leaseExpiresAt : ℤ
  createdAt : ℤ
  updatedAt : ℤ
  completedAt : Option ℤ := none
  state : RecordState := .started
  statusCode : Option ℤ := none
  terminalReason : Option String := none
  errorMessage : Option String := none
  inputTokens : ℤ := 0
  outputTokens : ℤ := 0
  cacheWriteTokens : ℤ := 0
  cacheReadTokens : ℤ := 0
  costAmountMicrounits : ℤ := 0
  billingMode : Option String := none
  chargeable : Bool := false
  latencyMs : ℤ := 0
  firstByteLatencyMs : Option ℤ := none
  toolOutcome : String := "not_requested"
  toolRepairAttempted : Bool := false
  toolRepairRecovered : Bool := false
  retryCount : ℤ := 0
  fallbackFromProvider : Option String := none
  deriving DecidableEq

structure RoutingDecisionEvidence where
  decisionId : String
  groupId : Option String
  profile : String
  policyVersion : String
  mode : String
  candidateCount : ℕ
  selectedProvider : String
  selectedModel : String
  recommendedProvider : String
  recommendedModel : String
  selectedScore : F64
  recommendedScore : F64
  reasonCodes : List String
  sessionAffinity : Bool
  shadowDisagreement : Bool
  deriving DecidableEq

structure LedgerRequestMetadata where
  requestPath : String
  trafficClass : String
  toolUseRequested : Bool
  username : String
  apiKeyId : Option String
  apiKeyName : Option String
  apiKeyGroup : Option String
  teamId : Option String
  teamName : Option String
  clientIp : Option String
  routingDecision : Option RoutingDecisionEvidence
  deriving DecidableEq

structure RequestRow where
  record : Record
  requestId : String
  principalId : String
  clientProtocol : String
  requestedModel : String
  stream : Bool
  metadata : LedgerRequestMetadata
  idempotencyKeyHash : Option String
  requestFingerprint : String
  providerId : Option String := none
  resolvedModel : Option String := none
  providerProtocol : Option String := none
  lastAttemptId : Option String := none
  modelPricing : Option ModelPricing := none
  deriving DecidableEq

structure AttemptRow where
  record : Record
  requestLedgerId : String
  providerId : String
  resolvedModel : String
  providerProtocol : String
  deriving DecidableEq

structure AccountRow where
  limitMicrounits : Option ℤ := none
  reservedMicrounits : ℤ := 0
  settledMicrounits : ℤ := 0
  version : ℤ := 0
  updatedAt : ℤ
  deriving DecidableEq

structure ReservationRow where
  reservationId : String
  requestLedgerId : String
  reservedMicrounits : ℤ
  settledMicrounits : ℤ := 0
  state : ReservationState := .reserved
  evidenceSource : Option String := none
  billingMode : Option String := none
  updatedAt : ℤ
  terminalAt : Option ℤ := none
  deriving DecidableEq

structure EventRow where
  tenant : TenantKey
  reservationId : Option String := none
  requestLedgerId : Option String := none
  attemptId : Option String := none
  eventType : EventType
  reservedDeltaMicrounits : ℤ
  settledDeltaMicrounits : ℤ
  evidenceSource : String
  billingMode : Option String := none
  reason : Option String := none
  actorId : Option String := none
  inputTokens : ℤ := 0
  outputTokens : ℤ := 0
  cacheWriteTokens : ℤ := 0
  cacheReadTokens : ℤ := 0
  deriving DecidableEq

structure DecisionRow where
  requestLedgerId : String
  tenant : TenantKey
  evidence : RoutingDecisionEvidence
  deriving DecidableEq

/-! ## Keys -/

inductive Key where
  | organization (organizationId : String)
  | project (organizationId projectId : String)
  | environment (tenant : TenantKey)
  | request (ledgerId : String)
  /-- The partial unique index on the tenant and the idempotency key hash. -/
  | idempotency (tenant : TenantKey) (keyHash : String)
  | attempt (attemptId : String)
  | account (tenant : TenantKey)
  /-- Reservations are found by their tenant and attempt, which are unique together. -/
  | reservation (tenant : TenantKey) (attemptId : String)
  /-- The primary key of the reservations. -/
  | reservationId (reservationId : String)
  | event (eventId : String)
  | decision (decisionId : String)
  /-- The unique request of a routing decision. -/
  | decisionRequest (ledgerId : String)
  deriving DecidableEq

@[reducible] def Row : Key → Type
  | .organization _ => String
  | .project _ _ => String
  | .environment _ => String
  | .request _ => RequestRow
  | .idempotency _ _ => String
  | .attempt _ => AttemptRow
  | .account _ => AccountRow
  | .reservation _ _ => ReservationRow
  | .reservationId _ => TenantKey × String
  | .event _ => EventRow
  | .decision _ => DecisionRow
  | .decisionRequest _ => String

abbrev Tables := AList Row

/-! ## Constraints -/

def isBigint (n : ℤ) : Bool := decide (-2 ^ 63 ≤ n) && decide (n ≤ 2 ^ 63 - 1)

def lengthBetween (low high : ℕ) (s : String) : Bool := low ≤ s.length && s.length ≤ high

def toolOutcomes : List String :=
  ["not_requested", "continuation_tool_called", "tool_called", "final_answer",
   "answered_without_tool", "completed_unobserved", "client_cancelled", "timeout",
   "protocol_error", "upstream_or_delivery_error"]

/-- The checks on the columns that request and attempt rows share. -/
def Record.check (r : Record) : Bool :=
  r.statusCode.all (fun code => 100 ≤ code && code ≤ 599) &&
  0 ≤ r.inputTokens && 0 ≤ r.outputTokens && 0 ≤ r.cacheWriteTokens && 0 ≤ r.cacheReadTokens &&
  0 ≤ r.costAmountMicrounits && lengthBetween 1 128 r.leaseOwner &&
  0 ≤ r.latencyMs && r.firstByteLatencyMs.all (0 ≤ ·) && 0 ≤ r.retryCount &&
  toolOutcomes.contains r.toolOutcome

def RequestRow.check (r : RequestRow) : Bool :=
  r.record.check && r.idempotencyKeyHash.all (·.length == 64) &&
  r.requestFingerprint.length == 64 &&
  ["/v1/messages", "/v1/chat/completions"].contains r.metadata.requestPath &&
  ["business", "synthetic", "diagnostic"].contains r.metadata.trafficClass &&
  ((r.providerId.isNone && r.resolvedModel.isNone && r.providerProtocol.isNone &&
      r.lastAttemptId.isNone) ||
    (r.providerId.isSome && r.resolvedModel.isSome && r.providerProtocol.isSome &&
      r.lastAttemptId.isSome))

/-- The text columns that a new request row fills. -/
def RequestRow.texts (r : RequestRow) : List String :=
  let m := r.metadata
  [r.record.tenant.organizationId, r.record.tenant.projectId, r.record.tenant.environmentId,
    r.record.leaseOwner, r.requestId, r.principalId, r.clientProtocol, r.requestedModel,
    r.requestFingerprint, m.requestPath, m.trafficClass, m.username] ++
  [r.idempotencyKeyHash, m.apiKeyId, m.apiKeyName, m.apiKeyGroup, m.teamId, m.teamName,
    m.clientIp].filterMap id

def AccountRow.check (r : AccountRow) : Bool :=
  r.limitMicrounits.all (0 ≤ ·) && 0 ≤ r.reservedMicrounits && 0 ≤ r.settledMicrounits &&
  0 ≤ r.version

def AccountRow.inRange (r : AccountRow) : Bool :=
  isBigint r.reservedMicrounits && isBigint r.settledMicrounits && isBigint r.version

def ReservationRow.check (r : ReservationRow) : Bool :=
  0 ≤ r.reservedMicrounits && 0 ≤ r.settledMicrounits

def EventRow.check (r : EventRow) : Bool :=
  0 ≤ r.inputTokens && 0 ≤ r.outputTokens && 0 ≤ r.cacheWriteTokens && 0 ≤ r.cacheReadTokens

def scoreInBounds (score : F64) : Bool := score.geRat 0 && score.leRat 2

def RoutingDecisionEvidence.check (d : RoutingDecisionEvidence) : Bool :=
  ["explicit", "quality", "balanced", "economy", "latency"].contains d.profile &&
  ["static", "off_static", "shadow", "canary_control", "active"].contains d.mode &&
  1 ≤ d.candidateCount && d.candidateCount ≤ 256 &&
  scoreInBounds d.selectedScore && scoreInBounds d.recommendedScore &&
  lengthBetween 1 80 d.decisionId && lengthBetween 1 64 d.policyVersion &&
  d.groupId.all (lengthBetween 1 80) && lengthBetween 1 80 d.selectedProvider &&
  lengthBetween 1 240 d.selectedModel && lengthBetween 1 80 d.recommendedProvider &&
  lengthBetween 1 240 d.recommendedModel && d.reasonCodes.length ≤ 16

def hasRequest (v : Tables) (tenant : TenantKey) (ledgerId : String) : Bool :=
  (v.lookup (.request ledgerId)).any (·.record.tenant == tenant)

def hasAttempt (v : Tables) (tenant : TenantKey) (attemptId : String) : Bool :=
  (v.lookup (.attempt attemptId)).any (·.record.tenant == tenant)

def hasReservation (v : Tables) (tenant : TenantKey) (reservationId : String) : Bool :=
  (v.lookup (.reservationId reservationId)).any (·.1 == tenant)

/-- `CHECK`, range and `FOREIGN KEY` violations of a row about to be written. -/
def constraint : Txn.Constraint Row AppError := fun v k row =>
  match k, row with
  | .organization _, _ => none
  | .project organizationId _, _ =>
    if (v.lookup (.organization organizationId)).isNone then some (.sqlx .foreignKeyViolation)
    else none
  | .environment tenant, _ =>
    if (v.lookup (.project tenant.organizationId tenant.projectId)).isNone then
      some (.sqlx .foreignKeyViolation)
    else none
  | .request _, row =>
    if !row.check then some (.sqlx .checkViolation)
    else if (v.lookup (.environment row.record.tenant)).isNone then
      some (.sqlx .foreignKeyViolation)
    else none
  | .idempotency _ _, _ => none
  | .attempt _, row =>
    if !row.record.check then some (.sqlx .checkViolation)
    else if !hasRequest v row.record.tenant row.requestLedgerId then
      some (.sqlx .foreignKeyViolation)
    else none
  | .account tenant, row =>
    if !row.inRange then some (.sqlx .numericValueOutOfRange)
    else if !row.check then some (.sqlx .checkViolation)
    else if (v.lookup (.environment tenant)).isNone then some (.sqlx .foreignKeyViolation)
    else none
  | .reservation tenant attemptId, row =>
    if !row.check then some (.sqlx .checkViolation)
    else if !hasAttempt v tenant attemptId || !hasRequest v tenant row.requestLedgerId ||
        (v.lookup (.account tenant)).isNone then some (.sqlx .foreignKeyViolation)
    else none
  | .reservationId _, _ => none
  | .event _, row =>
    if !row.check then some (.sqlx .checkViolation)
    else if (v.lookup (.account row.tenant)).isNone ||
        !row.reservationId.all (hasReservation v row.tenant) then
      some (.sqlx .foreignKeyViolation)
    else none
  | .decision _, row =>
    if !row.evidence.check then some (.sqlx .checkViolation)
    else if !hasRequest v row.tenant row.requestLedgerId then some (.sqlx .foreignKeyViolation)
    else none
  | .decisionRequest _, _ => none

/-! ## The empty ledger -/

def TenantKey.local : TenantKey := ⟨"org_local", "prj_default", "env_default"⟩

/-- The rows that the migrations insert. -/
def migrated (now : ℤ) : Tables :=
  (∅ : Tables).insert (.organization "org_local") "Local organization"
    |>.insert (.project "org_local" "prj_default") "Default project"
    |>.insert (.environment .local) "Default environment"
    |>.insert (.account .local) { updatedAt := now }

end RouteSmith.Model.Ledger
