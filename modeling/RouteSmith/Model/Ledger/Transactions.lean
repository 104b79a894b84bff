import RouteSmith.Model.Ledger.Inputs

/-! # Ledger transactions

Each operation of the PostgreSQL backend as the transaction it runs, statement by
statement. `now` is the start of the transaction and `uuid n` its `n`-th random identifier.
-/

namespace RouteSmith.Model.Ledger

open Text Store Store.Txn

abbrev LedgerTxn := Txn Row AppError

/-! ## Changes to single rows -/

def microsPerSecond : ℤ := 1000000

/-- `now() + ttl * interval '1 second'`, with `duration_secs_i32`. -/
def leaseExpiry (now : ℤ) (ttl : ℕ) : ℤ := now + min ttl (2 ^ 31 - 1) * microsPerSecond

/-- The row that an operation scoped to a tenant and a lease owner may still change. -/
def Record.inScope (r : Record) (tenant : TenantKey) (leaseOwner : String) : Bool :=
  r.tenant == tenant && r.leaseOwner == leaseOwner

def Record.openFor (r : Record) (tenant : TenantKey) (leaseOwner : String) : Bool :=
  r.inScope tenant leaseOwner && r.state == .started

/-- The assignments of `update_terminal_record_pg`. -/
def Record.finalize (r : Record) (outcome : LedgerOutcome) (now : ℤ) : Record :=
  { r with
    state := outcome.state.toRecordState
    statusCode := some outcome.statusCode
    terminalReason := some outcome.terminalReason
    errorMessage := outcome.errorMessage
    inputTokens := toI64 outcome.estimate.inputTokens
    outputTokens := toI64 outcome.estimate.outputTokens
    cacheWriteTokens := toI64 outcome.estimate.cacheWriteTokens
    cacheReadTokens := toI64 outcome.estimate.cacheReadTokens
    costAmountMicrounits := costMicrounits outcome.estimate.costEstimate
    billingMode := some outcome.billingMode
    chargeable := outcome.chargeable
    latencyMs := outcome.latencyMs
    firstByteLatencyMs := outcome.firstByteLatencyMs
    toolOutcome := outcome.toolOutcome
    toolRepairAttempted := outcome.toolRepairAttempted
    toolRepairRecovered := outcome.toolRepairRecovered
    retryCount := outcome.retryCount
    fallbackFromProvider := outcome.fallbackFromProvider
    updatedAt := now
    completedAt := some now }

def Record.renew (r : Record) (now : ℤ) (ttl : ℕ) : Record :=
  { r with leaseExpiresAt := leaseExpiry now ttl, updatedAt := now }

def Record.expired (r : Record) (now : ℤ) : Bool :=
  r.state == .started && r.leaseExpiresAt ≤ now

/-- Milliseconds since the row was created, rounded, at least zero. -/
def Record.ageMs (r : Record) (now : ℤ) : ℤ := max 0 ((now - r.createdAt + 500) / 1000)

/-- What lease reconciliation writes to request and attempt rows alike. -/
def Record.markUnreconciled (r : Record) (errorMessage : String) (now : ℤ) : Record :=
  { r with
    state := .failed
    statusCode := some 500
    terminalReason := some "lease_expired_unreconciled"
    errorMessage := some errorMessage
    billingMode := some "unreconciled"
    chargeable := false
    latencyMs := r.ageMs now
    updatedAt := now
    completedAt := some now }

def RequestRow.markUnreconciled (r : RequestRow) (now : ℤ) : RequestRow :=
  let message := "ledger lease expired before a terminal request outcome was persisted"
  { r with record := { r.record.markUnreconciled message now with
      toolOutcome :=
        if r.metadata.toolUseRequested then "upstream_or_delivery_error" else "not_requested" } }

def AttemptRow.markUnreconciled (r : AttemptRow) (now : ℤ) : AttemptRow :=
  let message := "ledger lease expired before a terminal Provider outcome was persisted"
  { r with record := r.record.markUnreconciled message now }

/-- Adds to the reserved balance unless the limit forbids it. The sum in the predicate is a
`BIGINT`. -/
def AccountRow.reserve (a : AccountRow) (amount now : ℤ) : Except AppError (Option AccountRow) :=
  let row := { a with
    reservedMicrounits := a.reservedMicrounits + amount
    version := a.version + 1
    updatedAt := now }
  match a.limitMicrounits with
  | none => .ok (some row)
  | some limit =>
    if !isBigint (a.settledMicrounits + a.reservedMicrounits) ||
        !isBigint (a.settledMicrounits + a.reservedMicrounits + amount) then
      .error (.sqlx .numericValueOutOfRange)
    else if a.settledMicrounits + a.reservedMicrounits + amount ≤ limit then .ok (some row)
    else .ok none

/-- Moves `reserved` out of the reserved balance and `settled` into the settled one. -/
def AccountRow.settle (a : AccountRow) (reserved settled now : ℤ) :
    Except AppError (Option AccountRow) :=
  if reserved ≤ a.reservedMicrounits then
    .ok (some { a with
      reservedMicrounits := a.reservedMicrounits - reserved
      settledMicrounits := a.settledMicrounits + settled
      version := a.version + 1
      updatedAt := now })
  else .ok none

def AccountRow.adjust (a : AccountRow) (delta now : ℤ) : Except AppError (Option AccountRow) :=
  if !isBigint (a.settledMicrounits + delta) then .error (.sqlx .numericValueOutOfRange)
  else if 0 ≤ a.settledMicrounits + delta then
    .ok (some { a with
      settledMicrounits := a.settledMicrounits + delta
      version := a.version + 1
      updatedAt := now })
  else .ok none

/-! ## Statements over several keys -/

/-- `INSERT INTO modelport_gateway_requests .. ON CONFLICT (tenant, key hash) DO NOTHING`. -/
def insertRequestExec (ledgerId : String) (row : RequestRow) (v : Tables) :
    Except AppError (Tables × Bool) :=
  -- no value of a `TEXT` column has the character NUL
  if row.texts.any hasNul then .error (.sqlx .characterNotInRepertoire)
  else if !row.check then .error (.sqlx .checkViolation)
  else if row.idempotencyKeyHash.any fun hash =>
      (v.lookup (.idempotency row.record.tenant hash)).isSome then .ok (∅, false)
  else if (v.lookup (.request ledgerId)).isSome then .error (.sqlx .uniqueViolation)
  else if (v.lookup (.environment row.record.tenant)).isNone then
    .error (.sqlx .foreignKeyViolation)
  else
    let entry : Tables := row.idempotencyKeyHash.elim ∅ fun hash =>
      AList.singleton (Key.idempotency row.record.tenant hash) ledgerId
    .ok (entry ∪ AList.singleton (Key.request ledgerId) row, true)

def insertDecisionExec (row : DecisionRow) (v : Tables) : Except AppError (Tables × Unit) :=
  let id := row.evidence.decisionId
  match constraint v (.decision id) row with
  | some e => .error e
  | none =>
    if (v.lookup (.decision id)).isSome ||
        (v.lookup (.decisionRequest row.requestLedgerId)).isSome then
      .error (.sqlx .uniqueViolation)
    else .ok (AList.singleton (Key.decisionRequest row.requestLedgerId) id ∪
      AList.singleton (Key.decision id) row, ())

/-- `INSERT INTO modelport_provider_attempts .. SELECT .. FROM modelport_gateway_requests`;
returns whether the request row was found. -/
def insertAttemptExec (request : LedgerRequest) (attemptId : String) (row : AttemptRow)
    (v : Tables) : Except AppError (Tables × Bool) :=
  if (v.lookup (.request request.ledgerId)).any
      (·.record.openFor request.tenant request.leaseOwner) then
    if (v.lookup (.attempt attemptId)).isSome then .error (.sqlx .uniqueViolation)
    else put constraint (.attempt attemptId) row true v
  else .ok (∅, false)

def insertReservationExec (tenant : TenantKey) (attemptId : String) (row : ReservationRow)
    (v : Tables) : Except AppError (Tables × Unit) :=
  match constraint v (.reservation tenant attemptId) row with
  | some e => .error e
  | none =>
    if (v.lookup (.reservationId row.reservationId)).isSome ||
        (v.lookup (.reservation tenant attemptId)).isSome then .error (.sqlx .uniqueViolation)
    else .ok (AList.singleton (Key.reservationId row.reservationId) (tenant, attemptId) ∪
      AList.singleton (Key.reservation tenant attemptId) row, ())

/-- The attempt rows that satisfy a predicate. -/
def attemptsWhere (p : AttemptRow → Bool) (v : Tables) : List String :=
  v.entries.filterMap fun
    | ⟨.attempt id, row⟩ => if p row then some id else none
    | _ => none

def requestsWhere (p : RequestRow → Bool) (v : Tables) : List String :=
  v.entries.filterMap fun
    | ⟨.request id, row⟩ => if p row then some id else none
    | _ => none

/-! ## Operations -/

structure BeginRequest where
  requestId : String
  principalId : String
  protocol : String
  tenant : TenantKey
  requestedModel : String
  stream : Bool
  idempotencyKey : Option String
  requestFingerprint : String
  metadata : LedgerRequestMetadata
  deriving DecidableEq

structure BeginAttempt where
  request : LedgerRequest
  attemptId : String
  providerId : String
  resolvedModel : String
  providerProtocol : String
  estimate : UsageEstimate
  deriving DecidableEq

inductive Operation where
  | beginRequest (input : BeginRequest)
  | beginAttempt (input : BeginAttempt)
  | finalizeAttempt (attempt : LedgerAttempt) (outcome : LedgerOutcome)
  | finalizeRequestUsage (request : LedgerRequest) (usage : UsageEventInput)
  | renewLease (request : LedgerRequest)
  | reconcileExpired
  | updateBudget (input : EnterpriseBudgetUpdate)
  | adjustBudget (input : EnterpriseBudgetAdjustmentInput) (actorId : String)
  deriving DecidableEq

/-- An operation as one gateway instance performs it. -/
structure Call where
  operation : Operation
  instanceId : String
  leaseTtl : ℕ
  now : ℤ
  uuid : ℕ → String

structure ReconcileResult where
  requests : ℕ
  attempts : ℕ
  deriving DecidableEq

inductive Reply where
  | unit
  | request (request : LedgerRequest)
  | attempt (attempt : LedgerAttempt)
  | reconciled (result : ReconcileResult)
  deriving DecidableEq

def ensureTenantCatalog (tenant : TenantKey) : LedgerTxn Unit := do
  let _ ← insertIgnore constraint (.organization tenant.organizationId) tenant.organizationId
  let _ ← insertIgnore constraint (.project tenant.organizationId tenant.projectId)
    tenant.projectId
  let _ ← insertIgnore constraint (.environment tenant) tenant.environmentId

/-- The checks that `begin_request_with_metadata` makes before it opens a transaction. -/
def validateBeginRequest (input : BeginRequest) : Except AppError Unit := do
  if !(["/v1/messages", "/v1/chat/completions"].contains input.metadata.requestPath) then
    .error (.invalidRequest "unsupported request path for enterprise ledger")
  else if !(["business", "synthetic", "diagnostic"].contains input.metadata.trafficClass) then
    .error (.invalidRequest "unsupported traffic class for enterprise ledger")
  else
    validateRequestMetadata input.metadata
    if len input.requestFingerprint ≠ 64 then
      .error (.database "request fingerprint must be a SHA-256 hex digest")
    else .ok ()

/-- The row that `begin_request_with_metadata` inserts. -/
def BeginRequest.row (sha256 : String → String) (input : BeginRequest) (call : Call) :
    RequestRow where
  record :=
    { tenant := input.tenant
      leaseOwner := call.instanceId
      leaseExpiresAt := leaseExpiry call.now call.leaseTtl
      createdAt := call.now
      updatedAt := call.now }
  requestId := input.requestId
  principalId := input.principalId
  clientProtocol := input.protocol
  requestedModel := input.requestedModel
  stream := input.stream
  metadata := input.metadata
  idempotencyKeyHash := input.idempotencyKey.map sha256
  requestFingerprint := input.requestFingerprint

/-- `SELECT request_fingerprint, state` of the request that holds an idempotency key. -/
def selectByKey (tenant : TenantKey) (hash : String) (v : Tables) :
    Option (String × RecordState) :=
  (v.lookup (Key.idempotency tenant hash)).bind fun ledgerId =>
    (v.lookup (Key.request ledgerId)).map fun row => (row.requestFingerprint, row.record.state)

def insertRoutingDecision (ledgerId : String) (tenant : TenantKey) :
    Option RoutingDecisionEvidence → LedgerTxn Unit
  | none => done ()
  | some decision => statement (insertDecisionExec ⟨ledgerId, tenant, decision⟩)

/-- The error that the row found under an idempotency key leads to. -/
def reportConflictExec (input : BeginRequest) (hash : String) (v : Tables) :
    Except AppError (Tables × Reply) :=
  match selectByKey input.tenant hash v with
  | none => .error (.sqlx .rowNotFound)
  | some (fingerprint, state) =>
    .error (idempotencyConflict (fingerprint == input.requestFingerprint) (state != .started))

/-- The answer to a request whose insertion met an existing idempotency key. -/
def reportConflict (input : BeginRequest) : Option String → LedgerTxn Reply
  | none => raise (.database "request insertion conflicted without an idempotency key")
  | some hash => statement (reportConflictExec input hash)

def beginRequestWithMetadata (sha256 : String → String) (input : BeginRequest) (call : Call) :
    LedgerTxn Reply := do
  ofExcept (validateBeginRequest input)
  let ledgerId := "grq_" ++ call.uuid 0
  let row := input.row sha256 call
  ensureTenantCatalog input.tenant
  let inserted ← statement (insertRequestExec ledgerId row)
  if inserted then
    insertRoutingDecision ledgerId input.tenant input.metadata.routingDecision
    return .request ⟨ledgerId, input.tenant, call.instanceId⟩
  else reportConflict input row.idempotencyKeyHash

def insertBudgetEvent (attempt : LedgerAttempt) (eventId : String) (eventType : EventType)
    (reservedDelta settledDelta : ℤ) (evidenceSource : String) (billingMode reason : Option String)
    (estimate : UsageEstimate) : LedgerTxn Unit :=
  insertNew constraint (.sqlx .uniqueViolation) (.event ("bev_" ++ eventId))
    { tenant := attempt.tenant
      reservationId := some attempt.reservationId
      requestLedgerId := some attempt.requestLedgerId
      attemptId := some attempt.attemptId
      eventType := eventType
      reservedDeltaMicrounits := reservedDelta
      settledDeltaMicrounits := settledDelta
      evidenceSource := evidenceSource
      billingMode := billingMode
      reason := reason
      inputTokens := toI64 estimate.inputTokens
      outputTokens := toI64 estimate.outputTokens
      cacheWriteTokens := toI64 estimate.cacheWriteTokens
      cacheReadTokens := toI64 estimate.cacheReadTokens }

def budgetExceeded (amount : ℤ) : AppError :=
  .quotaExceeded ("enterprise budget has insufficient available balance for a " ++
    toString amount ++ " microunit reservation")

/-- The attempt that `begin_attempt` returns. -/
def BeginAttempt.attempt (input : BeginAttempt) (call : Call) : LedgerAttempt where
  attemptId := input.attemptId
  requestLedgerId := input.request.ledgerId
  reservationId := "brs_" ++ call.uuid 0
  tenant := input.request.tenant
  leaseOwner := input.request.leaseOwner

/-- The row that `begin_attempt` inserts for the attempt. -/
def BeginAttempt.row (input : BeginAttempt) (call : Call) : AttemptRow where
  record :=
    { tenant := input.request.tenant
      leaseOwner := input.request.leaseOwner
      leaseExpiresAt := leaseExpiry call.now call.leaseTtl
      createdAt := call.now
      updatedAt := call.now }
  requestLedgerId := input.request.ledgerId
  providerId := input.providerId
  resolvedModel := input.resolvedModel
  providerProtocol := input.providerProtocol

/-- `reserved_microunits`. -/
def BeginAttempt.amount (input : BeginAttempt) : ℤ := costMicrounits input.estimate.costEstimate

/-- The part of `begin_attempt` that reserves budget on an existing account. -/
def reserveBudget (input : BeginAttempt) (call : Call) : LedgerTxn Reply := do
  match ← update constraint (Key.account input.request.tenant)
      (·.reserve input.amount call.now) with
  | none => raise (budgetExceeded input.amount)
  | some _ =>
    statement (insertReservationExec input.request.tenant input.attemptId
      { reservationId := "brs_" ++ call.uuid 0
        requestLedgerId := input.request.ledgerId
        reservedMicrounits := input.amount
        updatedAt := call.now })
    insertBudgetEvent (input.attempt call) (call.uuid 1) .reservationCreated input.amount 0
      "local-estimate" none (some "Provider Attempt budget reservation") input.estimate
    return .attempt (input.attempt call)

def beginAttempt (input : BeginAttempt) (call : Call) : LedgerTxn Reply := do
  let found ← statement (insertAttemptExec input.request input.attemptId (input.row call))
  if !found then raise (.sqlx .rowNotFound)
  else
    let _ ← insertIgnore constraint (.account input.request.tenant) { updatedAt := call.now }
    reserveBudget input call

/-- `update_terminal_record_pg` on an attempt row. -/
def updateTerminalAttempt (attemptId : String) (tenant : TenantKey) (leaseOwner : String)
    (outcome : LedgerOutcome) (now : ℤ) : LedgerTxn Bool := do
  let row ← update constraint (Key.attempt attemptId) fun row =>
    .ok (if row.record.openFor tenant leaseOwner then
      some { row with record := row.record.finalize outcome now } else none)
  return row.isSome

/-- `update_terminal_record_pg` on a request row. -/
def updateTerminalRequest (ledgerId : String) (tenant : TenantKey) (leaseOwner : String)
    (outcome : LedgerOutcome) (now : ℤ) : LedgerTxn Bool := do
  let row ← update constraint (Key.request ledgerId) fun row =>
    .ok (if row.record.openFor tenant leaseOwner then
      some { row with record := row.record.finalize outcome now } else none)
  return row.isSome

def settleBudget (attempt : LedgerAttempt) (outcome : LedgerOutcome) (call : Call) :
    LedgerTxn Unit := do
  let settled := costMicrounits outcome.estimate.costEstimate
  let reservation ← update constraint (Key.reservation attempt.tenant attempt.attemptId) fun row =>
    .ok (if row.state = .reserved then
      some { row with
        state := .settled
        settledMicrounits := settled
        evidenceSource := some outcome.evidenceSource
        billingMode := some outcome.billingMode
        updatedAt := call.now
        terminalAt := some call.now } else none)
  match reservation with
  | none => raise (.database "open budget reservation is missing")
  | some reservation =>
    let reserved := reservation.reservedMicrounits
    let account ← update constraint (Key.account attempt.tenant)
      (·.settle reserved settled call.now)
    if account.isNone then raise (.database "budget account reserved balance invariant failed")
    else
      insertBudgetEvent attempt (call.uuid 0) .settled (-reserved) settled outcome.evidenceSource
        (some outcome.billingMode) (some outcome.terminalReason) outcome.estimate

def finalizeAttempt (attempt : LedgerAttempt) (outcome : LedgerOutcome) (call : Call) :
    LedgerTxn Reply := do
  let updated ← updateTerminalAttempt attempt.attemptId attempt.tenant attempt.leaseOwner
    outcome call.now
  if updated then
    settleBudget attempt outcome call
    return .unit
  else
    let state ← query fun v => (v.lookup (Key.attempt attempt.attemptId)).bind fun row =>
      if row.record.inScope attempt.tenant attempt.leaseOwner then some row.record.state else none
    if state.any (· ≠ .started) then return .unit
    else raise missingScopedRecord

def finalizeRequestUsage (request : LedgerRequest) (usage : UsageEventInput) (call : Call) :
    LedgerTxn Reply := do
  let updated ← updateTerminalRequest request.ledgerId request.tenant request.leaseOwner
    (.fromUsage usage) call.now
  if !updated then raise missingScopedRecord
  else
    let _ ← update constraint (Key.request request.ledgerId) fun row =>
      .ok (if row.record.inScope request.tenant request.leaseOwner then
        some { row with
          providerId := usage.attemptId.map fun _ => usage.provider
          resolvedModel := usage.attemptId.map fun _ => usage.resolvedModel
          providerProtocol := usage.attemptId.map fun _ => usage.protocol
          lastAttemptId := usage.attemptId
          modelPricing := usage.modelPricing } else none)
    return .unit

def renewLease (request : LedgerRequest) (call : Call) : LedgerTxn Reply := do
  let _ ← update constraint (Key.request request.ledgerId) fun row =>
    .ok (if row.record.openFor request.tenant request.leaseOwner then
      some { row with record := row.record.renew call.now call.leaseTtl } else none)
  let matching := fun row : AttemptRow =>
    row.requestLedgerId == request.ledgerId && row.record.openFor request.tenant request.leaseOwner
  let attempts ← query (attemptsWhere matching)
  let _ ← updateEach constraint Key.attempt (fun _ row =>
    .ok (if matching row then
      some { row with record := row.record.renew call.now call.leaseTtl } else none)) attempts
  return .unit

def releaseBudget (attemptId : String) (tenant : TenantKey) (eventId : String) (now : ℤ) :
    LedgerTxn Unit := do
  let reservation ← update constraint (Key.reservation tenant attemptId) fun row =>
    .ok (if row.state = .reserved then
      some { row with
        state := .released
        evidenceSource := some "lease-expired"
        billingMode := some "unreconciled"
        updatedAt := now
        terminalAt := some now } else none)
  match reservation with
  | none => return ()
  | some reservation =>
    let reserved := reservation.reservedMicrounits
    let account ← update constraint (Key.account tenant) (·.settle reserved 0 now)
    if account.isNone then
      raise (.database "budget account reserved balance invariant failed during release")
    else
      insertBudgetEvent ⟨attemptId, reservation.requestLedgerId,
        reservation.reservationId, tenant, ""⟩
        eventId .released (-reserved) 0 "lease-expired" (some "unreconciled")
        (some "expired Provider Attempt lease released its budget reservation") {}

def reconcileExpired (call : Call) : LedgerTxn Reply := do
  let candidates ← query (attemptsWhere (·.record.expired call.now))
  let attempts ← updateEach constraint Key.attempt (fun _ row =>
    .ok (if row.record.expired call.now then some (row.markUnreconciled call.now) else none))
    candidates
  attempts.zipIdx.forM fun (⟨attemptId, row⟩, n) =>
    releaseBudget attemptId row.record.tenant (call.uuid n) call.now
  let candidates ← query (requestsWhere (·.record.expired call.now))
  let requests ← updateEach constraint Key.request (fun _ row =>
    .ok (if row.record.expired call.now then some (row.markUnreconciled call.now) else none))
    candidates
  return .reconciled ⟨requests.length, attempts.length⟩

/-- `INSERT .. ON CONFLICT DO UPDATE` on the account of a tenant. -/
def upsertLimitExec (tenant : TenantKey) (limit : Option ℤ) (now : ℤ) (v : Tables) :
    Except AppError (Tables × Unit) :=
  match v.lookup (Key.account tenant) with
  | none =>
    put constraint (Key.account tenant) { limitMicrounits := limit, updatedAt := now } () v
  | some account =>
    put constraint (Key.account tenant)
      { account with limitMicrounits := limit, version := account.version + 1, updatedAt := now }
      () v

def updateBudget (input : EnterpriseBudgetUpdate) (call : Call) : LedgerTxn Reply := do
  let tenant ← ofExcept input.tenant
  let limit ← ofExcept input.validatedLimit
  statement (upsertLimitExec tenant limit call.now)
  return .unit

def adjustBudget (input : EnterpriseBudgetAdjustmentInput) (actorId : String) (call : Call) :
    LedgerTxn Reply := do
  let tenant ← ofExcept input.tenant
  ofExcept input.validate
  let _ ← insertIgnore constraint (Key.account tenant) { updatedAt := call.now }
  let updated ← update constraint (Key.account tenant) (·.adjust input.deltaMicrounits call.now)
  if updated.isNone then
    raise (.invalidRequest "budget adjustment cannot make settled spend negative")
  else
    insertNew constraint (.sqlx .uniqueViolation) (.event ("bev_" ++ call.uuid 0))
      { tenant := tenant
        eventType := .adjustment
        reservedDeltaMicrounits := 0
        settledDeltaMicrounits := input.deltaMicrounits
        evidenceSource := input.evidenceReference
        reason := some input.reason
        actorId := some actorId }
    return .unit

/-! ## The budget view -/

def isI128 (n : ℤ) : Bool := decide (-2 ^ 127 ≤ n) && decide (n ≤ 2 ^ 127 - 1)

/-- `saturating_add` and `saturating_sub` on `i64` values. -/
def saturateI64 (n : ℤ) : ℤ := max (-2 ^ 63) (min (2 ^ 63 - 1) n)

/-- There is no result where the product overflows. -/
def utilizationBps (consumed limit : ℤ) : Option ℤ :=
  if limit = 0 then some (if consumed = 0 then 0 else 2 ^ 63 - 1)
  else if isI128 (consumed * 10000) then
    some (if isBigint ((consumed * 10000).tdiv limit) then (consumed * 10000).tdiv limit
      else 2 ^ 63 - 1)
  else none

structure EnterpriseBudgetAccount where
  tenant : TenantKey
  currency : String := "USD"
  limitMicrounits : Option ℤ
  reservedMicrounits : ℤ
  settledMicrounits : ℤ
  availableMicrounits : Option ℤ
  utilizationBasisPoints : Option ℤ
  warningThresholdReached : Bool
  hardLimitReached : Bool
  version : ℤ
  updatedAtMs : ℤ

/-- `budget_account` on the row of a tenant. -/
def budgetAccount (tenant : TenantKey) (a : AccountRow) : Option EnterpriseBudgetAccount := do
  let consumed := saturateI64 (a.reservedMicrounits + a.settledMicrounits)
  let utilization ← a.limitMicrounits.mapM (utilizationBps consumed)
  return {
    tenant
    limitMicrounits := a.limitMicrounits
    reservedMicrounits := a.reservedMicrounits
    settledMicrounits := a.settledMicrounits
    availableMicrounits := a.limitMicrounits.map fun limit => saturateI64 (limit - consumed)
    utilizationBasisPoints := utilization
    warningThresholdReached := utilization.any (8000 ≤ ·)
    hardLimitReached := utilization.any (10000 ≤ ·)
    version := a.version
    updatedAtMs := a.updatedAt }

/-! ## Programs -/

/-- The transaction that a call runs; `sha256` hashes idempotency keys. -/
def Call.program (sha256 : String → String) (call : Call) : LedgerTxn Reply :=
  match call.operation with
  | .beginRequest input => beginRequestWithMetadata sha256 input call
  | .beginAttempt input => beginAttempt input call
  | .finalizeAttempt attempt outcome => finalizeAttempt attempt outcome call
  | .finalizeRequestUsage request usage => finalizeRequestUsage request usage call
  | .renewLease request => renewLease request call
  | .reconcileExpired => reconcileExpired call
  | .updateBudget input => updateBudget input call
  | .adjustBudget input actorId => adjustBudget input actorId call

end RouteSmith.Model.Ledger
