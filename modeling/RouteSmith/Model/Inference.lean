import RouteSmith.Control.Loop
import RouteSmith.Model.Control
import RouteSmith.Model.Ledger.Inputs
import RouteSmith.Model.LocalScheduler
import RouteSmith.Model.StreamLifecycle

/-! # Handling an inference request

The attempt loop of `handle_inference`, what it writes to the ledger, and where it sends the
client's request. Each iteration meets a world it does not control: the control plane, which
other requests change meanwhile, the scheduler, the quotas, the ledger and the provider. Their
answers are an input of the loop, one `Surroundings` for each iteration.
-/

namespace RouteSmith.Model

open Control Numeric Text Model.Ledger

/-- What the gateway reads of a client's request; `anthropicClient` tells the two client
protocols apart. -/
structure ExchangeRequest where
  requestedModel : String
  stream : Bool
  anthropicClient : Bool
  usesTools : Bool
  hasToolResults : Bool
  thinkingDisabled : Bool
  serializedInputChars : ℕ
  estimatedOutputTokens : U64
  deriving DecidableEq

def estimateUsage (request : ExchangeRequest) (resolvedModel : String)
    (configuredPricing : Option ModelPricing) : UsageEstimate :=
  let inputTokens : U64 := .ofNat _ ((request.serializedInputChars + 3) / 4)
  let outputTokens := request.estimatedOutputTokens
  { inputTokens := inputTokens
    outputTokens := outputTokens
    costEstimate := costForModelWithPricing resolvedModel
      { inputTokens := inputTokens, outputTokens := outputTokens } configuredPricing }

/-- A provider's response: its status and the usage its header reports. -/
structure Response where
  status : ℕ
  usage : Option UsageEstimate
  deriving DecidableEq

def isRetryableMessageError : AppError → Bool
  | .transport _ | .upstreamProtocol _ | .toolArgumentsInvalid _ _ _ => true
  | .upstream status _ => status = 429 ∨ 500 ≤ status
  | _ => false

def classifyToolOutcome (requested continuation success timedOut : Bool) (terminalReason : String)
    (errorMessage : Option String) (response : ResponseObservation) : String :=
  if !requested then "not_requested"
  else if success then
    if 0 < response.toolCallCount then
      if continuation then "continuation_tool_called" else "tool_called"
    else if continuation then "final_answer"
    else if response.textPresent then "answered_without_tool"
    else "completed_unobserved"
  else if terminalReason = "downstream_cancelled" then "client_cancelled"
  else if timedOut || contains terminalReason "timeout" then "timeout"
  else if AppError.containsToolProtocolMarker (errorMessage.getD "") then "protocol_error"
  else "upstream_or_delivery_error"

/-! ## One attempt -/

/-- What one iteration of the attempt loop is answered; durations in milliseconds. -/
structure Surroundings where
  attemptId : String
  now : ℕ
  control : ControlInner
  acquire : Except AppError LocalAdmission
  checkQuotas : Except AppError Unit
  checkUsagePolicy : Except AppError Unit
  validateInferenceAttempt : Except AppError Unit
  checkProviderAttempt : Except AppError Unit
  beginAttempt : Except AppError LedgerAttempt
  sendInferenceAttempt : Except AppError Response
  lifecycle : StreamLifecycle
  elapsed : ℕ

/-- `SentAttempt`, with the provider as it was sent to, whether it was a repair, and how the
provider answered. -/
structure SentAttempt where
  attemptId : String
  providerId : String
  model : String
  protocol : String
  credentialId : Option String
  estimate : UsageEstimate
  pricing : Option ModelPricing
  lifecycle : StreamLifecycle
  ledgerAttempt : LedgerAttempt
  resolved : ResolvedProvider
  repair : Bool
  result : Except AppError Response

/-- How the checks before a send end. -/
inductive Preflight where
  /-- The local scheduler leaves the request to a cloud provider. -/
  | overflow
  | rejected (error : AppError)
  /-- The failure of a queue or of the ledger, which ends the loop. -/
  | stopped (error : AppError)
  | admitted (sent : SentAttempt)

section

variable (env urlHost : String → Option String)

/-- The checks from the local scheduler to `begin_attempt`. -/
def preflight (exchange : ExchangeRequest) (io : Surroundings) (attempt : ResolvedProvider)
    (repair : Bool) : Preflight :=
  let admission :=
    if ProviderBoundary.forResolved urlHost attempt = .local then io.acquire else .ok .acquired
  match admission with
  | .error error => .stopped error
  | .ok .overflowToCloud => .overflow
  | .ok .acquired =>
    match io.control.applySelectedProviderCredentialForRequest env attempt.providerId
        attempt.provider io.now with
    | .error error => .rejected error
    | .ok (credentialId, provider) =>
      let checks : Except AppError Unit := do
        io.checkQuotas
        io.checkUsagePolicy
        io.validateInferenceAttempt
        io.checkProviderAttempt
      match checks with
      | .error error => .rejected error
      | .ok () =>
        match io.beginAttempt with
        | .error error => .stopped error
        | .ok ledgerAttempt => .admitted
          { attemptId := io.attemptId
            providerId := attempt.providerId
            model := attempt.model
            protocol := providerProtocolValue attempt.provider.protocol
            credentialId := credentialId
            estimate := estimateUsage exchange attempt.model provider.pricing
            pricing := provider.pricing
            lifecycle := io.lifecycle
            ledgerAttempt := ledgerAttempt
            resolved := { attempt with provider := provider }
            repair := repair
            result := io.sendInferenceAttempt }

/-- The usage an upstream reported with its answer, by header or with a rejected tool call. -/
def SentAttempt.reportedUsage (sent : SentAttempt) : Option UsageEstimate :=
  match sent.result with
  | .ok response => response.usage
  | .error error => error.toolArgumentUsage.map fun usage =>
    chargeForModelWithPricing sent.model usage sent.pricing

/-- The usage of an attempt once it is answered: as reported, or else as estimated. -/
def SentAttempt.usage (sent : SentAttempt) : UsageEstimate := sent.reportedUsage.getD sent.estimate

def resultStatus : Except AppError Response → ℕ
  | .ok response => response.status
  | .error error => error.httpStatus

def resultError : Except AppError Response → Option String
  | .ok _ => none
  | .error error => some error.auditMessage

/-- The outcome an attempt that is not a running stream is finalized with. -/
def SentAttempt.outcome (sent : SentAttempt) (elapsed : ℕ) : LedgerOutcome :=
  .providerAttempt sent.result.isOk (resultStatus sent.result) (resultError sent.result)
    sent.usage (if sent.reportedUsage.isSome then "upstream-returned" else "local-estimate") elapsed

/-! ## The attempt loop -/

/-- The variables of the loop. `sent` and `finalized` record, in order, the attempts sent
upstream and the calls of `finalize_attempt`. -/
structure LoopState where
  attempts : List (ResolvedProvider × Bool)
  iteration : ℕ := 0
  providerId : String := ""
  upstreamModel : String := ""
  protocol : String := ""
  retryCount : ℕ := 0
  fallbackFromProvider : Option String := none
  result : Except AppError Response
  firstSentProvider : Option String := none
  sentAttempts : ℕ := 0
  lastSent : Option SentAttempt := none
  toolRepairAttempted : Bool := false
  toolRepairRecovered : Bool := false
  priorAttemptUsage : UsageEstimate := {}
  sent : List SentAttempt := []
  finalized : List (LedgerAttempt × LedgerOutcome) := []

namespace LoopState

def initial (exchange : ExchangeRequest) (authorized : List ResolvedProvider) : LoopState where
  attempts := authorized.map fun resolved => (resolved, false)
  result := .error (.providerNotFound exchange.requestedModel)

def saturatingSucc32 (n : ℕ) : ℕ := min (n + 1) (2 ^ 32 - 1)

/-- The variables when an attempt has been taken from the queue. -/
def take (st : LoopState) (attempt : ResolvedProvider) (rest : List (ResolvedProvider × Bool)) :
    LoopState :=
  { st with
    attempts := rest
    iteration := st.iteration + 1
    providerId := attempt.providerId
    upstreamModel := attempt.model
    protocol := providerProtocolValue attempt.provider.protocol }

/-- The bookkeeping around a send: retries are counted, and an attempt is finalized unless it
is a stream that now runs. -/
def send (st : LoopState) (exchange : ExchangeRequest) (sent : SentAttempt) (elapsed : ℕ) :
    LoopState :=
  let again := 0 < st.sentAttempts
  { st with
    retryCount := if again then saturatingSucc32 st.retryCount else st.retryCount
    fallbackFromProvider :=
      if again ∧ st.firstSentProvider ≠ some sent.providerId then st.firstSentProvider
      else st.fallbackFromProvider
    firstSentProvider := if again then st.firstSentProvider else some sent.providerId
    sentAttempts := saturatingSucc32 st.sentAttempts
    lastSent := some sent
    result := sent.result
    sent := st.sent ++ [sent]
    finalized :=
      if exchange.stream && sent.result.isOk then st.finalized
      else st.finalized ++ [(sent.ledgerAttempt, sent.outcome elapsed)] }

/-- The usage of a failed attempt joins that of the attempts before it. -/
def mergePrior (st : LoopState) (sent : SentAttempt) : LoopState :=
  { st with priorAttemptUsage := mergeUsageEstimates st.priorAttemptUsage sent.usage }

end LoopState

def repairEnabled (exchange : ExchangeRequest) (attempt : ResolvedProvider) : Bool :=
  exchange.anthropicClient && !exchange.stream && attempt.provider.protocol = .openaiCompat &&
    attempt.provider.toolUse.repairInvalidArguments

/-- Whether a failed attempt is sent once more with a repair instruction. -/
def repairCandidate (exchange : ExchangeRequest) (attempt : ResolvedProvider)
    (toolRepairAttempted : Bool) : AppError → Bool
  | .toolArgumentsInvalid _ _ _ => repairEnabled exchange attempt && !toolRepairAttempted
  | _ => false

/-- The rest of an iteration, once an attempt has been sent and answered. -/
def afterSend (exchange : ExchangeRequest) (attempt : ResolvedProvider) (sent : SentAttempt)
    (st : LoopState) : Flow LoopState LoopState :=
  match sent.result with
  | .ok _ => .done { st with toolRepairRecovered := sent.repair }
  | .error error =>
    if repairCandidate exchange attempt st.toolRepairAttempted error then
      .next { st.mergePrior sent with
        toolRepairAttempted := true
        attempts := (attempt, true) :: st.attempts }
    else if !isRetryableMessageError error || st.attempts.isEmpty then .done st
    else .next (st.mergePrior sent)

/-- One iteration of the loop over the queued attempts. -/
def attemptBody (exchange : ExchangeRequest) (answers : ℕ → Surroundings) (st : LoopState) :
    Flow LoopState LoopState :=
  match st.attempts with
  | [] => .done st
  | (attempt, repair) :: rest =>
    let io := answers st.iteration
    let st := st.take attempt rest
    match preflight env urlHost exchange io attempt repair with
    | .overflow => .next st
    | .rejected error => .next { st with result := .error error }
    | .stopped error => .done { st with result := .error error }
    | .admitted sent => afterSend exchange attempt sent (st.send exchange sent io.elapsed)

/-- The attempt loop over the authorized attempts; two iterations more than there are attempts
are enough for it to end. -/
def attemptLoop (exchange : ExchangeRequest) (answers : ℕ → Surroundings)
    (authorized : List ResolvedProvider) : Option LoopState :=
  iterate (attemptBody env urlHost exchange answers) (authorized.length + 2)
    (.initial exchange authorized)

end

/-! ## What the ledger is told -/

def resultTimedOut : Except AppError Response → Bool
  | .error (.transport message) => contains message "timed out"
  | _ => false

/-- The usage event of a request whose loop has ended. -/
def LoopState.usageEvent (exchange : ExchangeRequest) (st : LoopState) (latency : ℕ) :
    UsageEventInput :=
  let upstreamUsage := st.result.toOption.bind (·.usage)
  let localEstimate := (st.lastSent.map (·.estimate)).getD {}
  let timedOut := resultTimedOut st.result
  let terminalReason :=
    if st.result.isOk then "completed"
    else if timedOut then "timeout_before_response"
    else "failed_before_response"
  { attemptId := st.lastSent.map (·.attemptId)
    resolvedModel := (st.lastSent.map (·.model)).getD st.upstreamModel
    provider := (st.lastSent.map (·.providerId)).getD st.providerId
    protocol := (st.lastSent.map (·.protocol)).getD st.protocol
    toolOutcome := classifyToolOutcome exchange.usesTools exchange.hasToolResults st.result.isOk
      timedOut terminalReason (resultError st.result)
      ((st.lastSent.map (·.lifecycle.response)).getD {})
    toolRepairAttempted := st.toolRepairAttempted
    toolRepairRecovered := st.toolRepairRecovered
    success := st.result.isOk
    statusCode := resultStatus st.result
    terminalReason := terminalReason
    estimate := mergeUsageEstimates st.priorAttemptUsage (upstreamUsage.getD localEstimate)
    modelPricing := st.lastSent.bind (·.pricing)
    billingMode :=
      if st.toolRepairAttempted && upstreamUsage.isSome then "upstream-returned+tool-repair"
      else if 0 < st.retryCount ∧ upstreamUsage.isSome then "mixed-attempts"
      else if 0 < st.retryCount then "local-estimate+retry"
      else if upstreamUsage.isSome then "upstream-returned"
      else "local-estimate"
    chargeable := st.lastSent.isSome
    latency := latency
    firstByteLatency :=
      if exchange.stream then st.lastSent.bind (·.lifecycle.firstSemanticLatency) else none
    retryCount := st.retryCount
    fallbackFromProvider := st.fallbackFromProvider
    errorMessage := resultError st.result }

/-- How a stream that was handed to the client ended. -/
structure StreamEnd where
  outcome : StreamTerminalOutcome
  lifecycle : StreamLifecycle
  duration : ℕ
  attemptElapsed : ℕ

/-- `StreamFinalizationContext::finalize`, up to the two ledger calls. -/
def finalizeStream (exchange : ExchangeRequest) (usage : UsageEventInput)
    (priorAttemptUsage : UsageEstimate) (pricing : Option ModelPricing) (stream : StreamEnd) :
    UsageEventInput :=
  let usage :=
    match stream.lifecycle.usage with
    | none => usage
    | some tokens =>
      { usage with
        estimate := mergeUsageEstimates priorAttemptUsage
          (chargeForModelWithPricing usage.resolvedModel tokens pricing)
        billingMode := if 0 < usage.retryCount then "mixed-attempts" else "upstream-returned" }
  { usage with
    success := stream.outcome.success
    statusCode := stream.outcome.statusCode
    terminalReason := stream.outcome.terminalReason
    errorMessage := stream.outcome.auditErrorMessage
    toolOutcome := classifyToolOutcome exchange.usesTools exchange.hasToolResults
      stream.outcome.success stream.outcome.timedOut stream.outcome.terminalReason
      stream.outcome.auditErrorMessage stream.lifecycle.response
    latency := stream.duration
    firstByteLatency := stream.lifecycle.firstSemanticLatency }

/-- The ledger calls of a request: `finalize_attempt` for each attempt, in order, and
`finalize_request_usage` at the end. -/
structure LedgerCalls where
  attempts : List (LedgerAttempt × LedgerOutcome)
  request : UsageEventInput

def ledgerCalls (exchange : ExchangeRequest) (st : LoopState) (latency : ℕ)
    (stream : StreamEnd) : LedgerCalls :=
  let usage := st.usageEvent exchange latency
  match st.lastSent with
  | some sent =>
    if exchange.stream && st.result.isOk then
      let usage := finalizeStream exchange usage st.priorAttemptUsage sent.pricing stream
      ⟨st.finalized ++
        [(sent.ledgerAttempt, .fromUsageWithLatency usage stream.attemptElapsed)], usage⟩
    else ⟨st.finalized, usage⟩
  | none => ⟨st.finalized, usage⟩

end RouteSmith.Model
