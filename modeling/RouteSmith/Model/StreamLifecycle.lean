import RouteSmith.Model.Error

/-! # How a provider stream ends

The record a stream keeps of its upstream, and the outcome read from it when the body has
been delivered, has failed, or has been dropped by the client.
-/

namespace RouteSmith.Model

open Text

inductive UpstreamStreamState where
  | pending
  | completed
  | failed (error : String)
  deriving DecidableEq

structure ResponseObservation where
  toolCallCount : ℕ := 0
  textPresent : Bool := false
  stopReason : Option String := none
  deriving DecidableEq

/-- Durations in milliseconds since the stream started. -/
structure StreamLifecycle where
  state : UpstreamStreamState := .pending
  usage : Option TokenUsageBreakdown := none
  firstSemanticLatency : Option ℕ := none
  response : ResponseObservation := {}
  deriving DecidableEq

namespace StreamLifecycle

/-- The first terminal state wins. -/
def markCompleted (l : StreamLifecycle) : StreamLifecycle :=
  if l.state = .pending then { l with state := .completed } else l

def markFailed (l : StreamLifecycle) (error : String) : StreamLifecycle :=
  if l.state = .pending then { l with state := .failed error } else l

def markFirstSemanticEvent (l : StreamLifecycle) (elapsed : ℕ) : StreamLifecycle :=
  { l with firstSemanticLatency := some (l.firstSemanticLatency.getD elapsed) }

def mergeResponse (l : StreamLifecycle) (toolCallCount : ℕ) (textPresent : Bool)
    (stopReason : Option String) : StreamLifecycle :=
  { l with response :=
    { toolCallCount := max l.response.toolCallCount toolCallCount
      textPresent := l.response.textPresent || textPresent
      stopReason := stopReason.or l.response.stopReason } }

def observeResponseFragment (l : StreamLifecycle) (elapsed toolCallCount : ℕ)
    (textPresent : Bool) (stopReason : Option String) : StreamLifecycle :=
  (if 0 < toolCallCount || textPresent then l.markFirstSemanticEvent elapsed else l).mergeResponse
    toolCallCount textPresent stopReason

def observeOpenaiResponse (l : StreamLifecycle) (response : Json) : StreamLifecycle :=
  match ((response.get? "choices").bind Json.asArray).bind List.head? with
  | none => l
  | some choice =>
    let message := (choice.get? "message").getD .null
    let toolCalls := ((message.get? "tool_calls").bind Json.asArray).elim 0 List.length
    let functionCall := (message.get? "function_call").any Json.isObject
    let textPresent := ((message.get? "content").bind Json.asStr).any fun text =>
      !isEmpty (trim text)
    l.mergeResponse (toolCalls + functionCall.toNat) textPresent
      ((choice.get? "finish_reason").bind Json.asStr)

def mergeUsage (l : StreamLifecycle) (usage : TokenUsageBreakdown) : StreamLifecycle :=
  let current := l.usage.getD {}
  let merged : TokenUsageBreakdown :=
    { inputTokens := max current.inputTokens usage.inputTokens
      outputTokens := max current.outputTokens usage.outputTokens
      cacheWriteTokens := max current.cacheWriteTokens usage.cacheWriteTokens
      cacheReadTokens := max current.cacheReadTokens usage.cacheReadTokens }
  { l with usage := some merged }

end StreamLifecycle

/-! ## Traces

What a stream does, in order: events and, where it fails, an error are handed to the client, and
the record of the upstream is updated in between.
-/

inductive LifecycleUpdate where
  | completed
  | failed (error : String)
  | usage (usage : TokenUsageBreakdown)
  | fragment (toolCallCount : ℕ) (textPresent : Bool) (stopReason : Option String)
  | semanticEvent
  | openaiResponse (response : Json)

def LifecycleUpdate.apply (elapsed : ℕ) (l : StreamLifecycle) : LifecycleUpdate → StreamLifecycle
  | completed => l.markCompleted
  | failed error => l.markFailed error
  | usage reported => l.mergeUsage reported
  | fragment toolCallCount textPresent stopReason =>
    l.observeResponseFragment elapsed toolCallCount textPresent stopReason
  | semanticEvent => l.markFirstSemanticEvent elapsed
  | openaiResponse response => l.observeOpenaiResponse response

inductive StreamAction (ε : Type) where
  | event (event : ε)
  | error (error : AppError)
  | update (update : LifecycleUpdate)

namespace StreamAction

variable {ε : Type}

def apply (elapsed : ℕ) (l : StreamLifecycle) : StreamAction ε → StreamLifecycle
  | update u => u.apply elapsed l
  | event _ | error _ => l

/-- What the client receives. -/
def item? : StreamAction ε → Option (Except AppError ε)
  | event e => some (.ok e)
  | error e => some (.error e)
  | update _ => none

end StreamAction

/-- The record of a stream that has been consumed, where `elapsed` reads the clock at each
action. -/
def lifecycleAfter {ε : Type} (elapsed : ℕ → ℕ) (trace : List (StreamAction ε)) :
    StreamLifecycle :=
  trace.zipIdx.foldl (fun l (action, i) => action.apply (elapsed i) l) {}

/-- The items a consumed stream has delivered. -/
def itemsOf {ε : Type} (trace : List (StreamAction ε)) : List (Except AppError ε) :=
  trace.filterMap StreamAction.item?

/-! ## Outcomes -/

inductive StreamTerminalOutcome where
  | completed
  | upstreamFailed (error : String)
  | deliveryFailed (error : String)
  | downstreamCancelled (upstreamState : UpstreamStreamState)
  deriving DecidableEq

def auditSafeStreamError (error : String) : String :=
  let normalized := toAsciiLowercase error
  if contains normalized "timed out" then "upstream stream timed out [details redacted]"
  else if AppError.balanceMarkers.any (contains normalized) then
    "upstream stream error: insufficient balance [details redacted]"
  else if contains normalized "rate limit" then
    "upstream stream error: rate limit [details redacted]"
  else if AppError.toolMarkers.any (contains normalized) then
    "upstream tool stream protocol error [details redacted]"
  else "upstream stream error [details redacted]"

namespace StreamTerminalOutcome

def afterEof (l : StreamLifecycle) : StreamTerminalOutcome :=
  match l.state with
  | .completed => completed
  | .failed error => upstreamFailed error
  | .pending => upstreamFailed "stream body ended without a protocol terminal signal"

def afterBodyError (l : StreamLifecycle) (error : String) : StreamTerminalOutcome :=
  match l.state with
  | .failed upstreamError => upstreamFailed upstreamError
  | .completed | .pending => deliveryFailed error

def afterDrop (l : StreamLifecycle) : StreamTerminalOutcome := downstreamCancelled l.state

def success (o : StreamTerminalOutcome) : Bool := o = completed

def errorMessage : StreamTerminalOutcome → Option String
  | completed => none
  | upstreamFailed error | deliveryFailed error => some error
  | downstreamCancelled (.failed error) => some error
  | downstreamCancelled _ => some "downstream cancelled before stream delivery completed"

def timedOut (o : StreamTerminalOutcome) : Bool :=
  o.errorMessage.any fun message => contains (toAsciiLowercase message) "timed out"

def statusCode (o : StreamTerminalOutcome) : ℕ :=
  match o with
  | completed => 200
  | upstreamFailed _ => if o.timedOut then 504 else 502
  | deliveryFailed _ => 502
  | downstreamCancelled _ => 499

def terminalReason (o : StreamTerminalOutcome) : String :=
  match o with
  | completed => "completed"
  | upstreamFailed _ => if o.timedOut then "upstream_timeout" else "upstream_error"
  | deliveryFailed _ => "delivery_error"
  | downstreamCancelled .completed => "downstream_cancelled_after_upstream_complete"
  | downstreamCancelled _ => "downstream_cancelled"

def auditErrorMessage : StreamTerminalOutcome → Option String
  | completed => none
  | upstreamFailed error => some (auditSafeStreamError error)
  | deliveryFailed _ => some "stream delivery error [details redacted]"
  | downstreamCancelled (.failed error) => some (auditSafeStreamError error)
  | downstreamCancelled _ => some "downstream cancelled before stream delivery completed"

end StreamTerminalOutcome

end RouteSmith.Model
