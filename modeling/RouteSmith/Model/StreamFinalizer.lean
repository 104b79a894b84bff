import RouteSmith.Model.StreamLifecycle

/-! # The finalizer of a streamed response

The body of a streamed response is passed on by a generator that holds a guard. The guard writes
the outcome down when the body ends or fails, or else when it is dropped.
-/

namespace RouteSmith.Model

open Text

def upstreamFailureStatus (error : String) : ℕ :=
  if contains (toAsciiLowercase error) "timed out" then 504 else 502

/-- What a provider is credited with: success, status and error text. -/
structure ProviderOutcome where
  success : Bool
  statusCode : ℕ
  errorMessage : Option String
  deriving DecidableEq

def providerTerminalOutcome (outcome : StreamTerminalOutcome) (lifecycle : StreamLifecycle) :
    Option ProviderOutcome :=
  let failed error : ProviderOutcome :=
    ⟨false, upstreamFailureStatus error, some (auditSafeStreamError error)⟩
  match outcome with
  | .completed => some ⟨true, 200, none⟩
  | .upstreamFailed error => some (failed error)
  | .deliveryFailed _ | .downstreamCancelled _ =>
    match lifecycle.state with
    | .completed => some ⟨true, 200, none⟩
    | .failed error => some (failed error)
    | .pending => none

/-- What is written down of a stream. -/
structure Finalization where
  success : Bool
  timedOut : Bool
  statusCode : ℕ
  terminalReason : String
  errorMessage : Option String
  usage : Option TokenUsageBreakdown
  firstByteLatency : Option ℕ
  provider : Option ProviderOutcome
  deriving DecidableEq

def finalize (lifecycle : StreamLifecycle) (outcome : StreamTerminalOutcome) : Finalization where
  success := outcome.success
  timedOut := outcome.timedOut
  statusCode := outcome.statusCode
  terminalReason := outcome.terminalReason
  errorMessage := outcome.auditErrorMessage
  usage := lifecycle.usage
  firstByteLatency := lifecycle.firstSemanticLatency
  provider := providerTerminalOutcome outcome lifecycle

/-- Where the generator stands: in the loop over the body, behind the `yield` of an error, or at
its end. -/
inductive GeneratorPhase where
  | streaming
  | errored
  | closed
  deriving DecidableEq

structure ResponseStream where
  phase : GeneratorPhase := .streaming
  /-- Whether the guard still holds its context. -/
  guarded : Bool := true
  lifecycle : StreamLifecycle := {}
  finalizations : List Finalization := []

/-- What happens to a response: the upstream side updates the record, the body yields, ends or
fails when it is polled, the generator is resumed behind its error, the client drops it. -/
inductive ResponseEvent where
  | update (elapsed : ℕ) (update : LifecycleUpdate)
  | chunk
  | endOfBody
  | bodyError (error : String)
  | resume
  | drop

namespace ResponseStream

def finish (s : ResponseStream) (outcome : StreamTerminalOutcome) : ResponseStream :=
  if s.guarded then
    { s with guarded := false, finalizations := s.finalizations ++ [finalize s.lifecycle outcome] }
  else s

/-- The end of the generator, where its guard is dropped. -/
def close (s : ResponseStream) : ResponseStream :=
  { s.finish (.afterDrop s.lifecycle) with phase := .closed }

def step (s : ResponseStream) : ResponseEvent → ResponseStream
  | .update elapsed u => { s with lifecycle := u.apply elapsed s.lifecycle }
  | .chunk => s
  | .endOfBody =>
    if s.phase = .streaming then (s.finish (.afterEof s.lifecycle)).close else s
  | .bodyError error =>
    if s.phase = .streaming then
      { s.finish (.afterBodyError s.lifecycle error) with phase := .errored }
    else s
  | .resume => if s.phase = .errored then s.close else s
  | .drop => if s.phase = .closed then s else s.close

/-- A response from its start. -/
def run (events : List ResponseEvent) : ResponseStream := events.foldl step {}

end ResponseStream

end RouteSmith.Model
