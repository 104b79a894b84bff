import RouteSmith.Model.Usage

/-! # Application errors -/

namespace RouteSmith.Model

open Text

/-- Failures reported by the database driver. -/
inductive SqlxError where
  | rowNotFound
  | uniqueViolation
  | checkViolation
  | foreignKeyViolation
  | numericValueOutOfRange
  | characterNotInRepertoire
  | untranslatableCharacter
  deriving DecidableEq

inductive AppError where
  | auth
  | config (message : String)
  | database (message : String)
  /-- `Database` carrying the text of a driver error. -/
  | sqlx (error : SqlxError)
  | forbidden (message : String)
  | idempotencyConflict (message : String)
  | stateConflict (message : String)
  | quotaExceeded (message : String)
  | rateLimited (message : String) (retryAfterSecs : ℕ)
  | invalidRequest (message : String)
  | missingSecret (message : String)
  | notReady (message : String)
  | notFound (message : String)
  | providerNotFound (provider : String)
  | transport (message : String)
  | upstream (status : ℕ) (body : String)
  | upstreamProtocol (message : String)
  | toolArgumentsInvalid (instancePath schemaPath : String) (usage : Option TokenUsageBreakdown)
  | io (message : String)
  | json (message : String)
  deriving DecidableEq

/-- A computation succeeds when its first part does and the rest does on its result. -/
theorem bind_eq_ok_iff {ε α β : Type} {x : Except ε α} {f : α → Except ε β} {b : β} :
    (x >>= f) = .ok b ↔ ∃ a, x = .ok a ∧ f a = .ok b := by
  cases x with
  | error => exact ⟨nofun, fun ⟨a, h, _⟩ => by cases h⟩
  | ok a => exact ⟨fun h => ⟨a, rfl, h⟩, fun ⟨_, h, h'⟩ => by cases h; exact h'⟩

theorem pure_eq_ok {ε α : Type} {a b : α} : (pure a : Except ε α) = .ok b ↔ b = a :=
  ⟨fun h => by cases h; rfl, fun h => by rw [h]; rfl⟩

namespace AppError

def toolArgumentUsage : AppError → Option TokenUsageBreakdown
  | toolArgumentsInvalid _ _ usage => usage
  | _ => none

/-- The error as a text; what the driver says of a database failure is left out. -/
def display : AppError → String
  | auth => "client authentication failed"
  | config message => "configuration error: " ++ message
  | database message => "database error: " ++ message
  | sqlx _ => "database error: "
  | forbidden message => "forbidden: " ++ message
  | idempotencyConflict message => "idempotency conflict: " ++ message
  | stateConflict message => "state conflict: " ++ message
  | quotaExceeded message => "quota exceeded: " ++ message
  | rateLimited message _ => "rate limited: " ++ message
  | invalidRequest message => "invalid request: " ++ message
  | missingSecret message => "missing secret environment variable: " ++ message
  | notReady message => "service not ready: " ++ message
  | notFound message => "not found: " ++ message
  | providerNotFound provider => "provider not found: " ++ provider
  | transport message => "transport error: " ++ message
  | upstream status body => "upstream returned HTTP " ++ toString status ++ ": " ++ body
  | upstreamProtocol message => "upstream protocol error: " ++ message
  | toolArgumentsInvalid instancePath schemaPath _ =>
    "upstream tool arguments failed strict schema validation at " ++ instancePath ++
      " (schema path " ++ schemaPath ++ "; value [redacted])"
  | io message | json message => message

/-- `http_status`. -/
def httpStatus : AppError → ℕ
  | auth => 401
  | config _ | database _ | sqlx _ => 500
  | forbidden _ => 403
  | idempotencyConflict _ | stateConflict _ => 409
  | quotaExceeded _ | rateLimited _ _ => 429
  | invalidRequest _ => 400
  | missingSecret _ => 500
  | notReady _ => 503
  | notFound _ => 404
  | providerNotFound _ => 400
  | transport _ | upstreamProtocol _ | toolArgumentsInvalid _ _ _ => 502
  | upstream status _ => if 400 ≤ status && status ≤ 599 then status else 502
  | io _ | json _ => 500

def balanceMarkers : List String :=
  ["insufficient_balance", "insufficient balance", "insufficient account balance",
    "balance not enough", "余额不足"]

def toolMarkers : List String :=
  ["tool", "function", "input_json", "tool_use", "tool_result"]

def upstreamAuditCategory (status : ℕ) (body : String) : String :=
  let normalized := toAsciiLowercase body
  if balanceMarkers.any (contains normalized) then "insufficient balance [body redacted]"
  else if status = 401 ∨ status = 403 then
    "authentication or authorization failed [body redacted]"
  else if status = 429 ∨ contains normalized "rate limit" then "rate limit [body redacted]"
  else "body [redacted]"

def containsToolProtocolMarker (message : String) : Bool :=
  toolMarkers.any (contains (toAsciiLowercase message))

/-- The text kept in usage and ledger records. -/
def auditMessage : AppError → String
  | auth => "client authentication failed"
  | config _ => "configuration error [details redacted]"
  | database _ | sqlx _ => "database error [details redacted]"
  | forbidden _ => "forbidden [details redacted]"
  | idempotencyConflict _ => "idempotency conflict [details redacted]"
  | stateConflict _ => "state conflict [details redacted]"
  | quotaExceeded _ => "quota exceeded [details redacted]"
  | rateLimited _ _ => "rate limited [details redacted]"
  | invalidRequest _ => "invalid request [details redacted]"
  | missingSecret _ => "missing secret environment variable [name redacted]"
  | notReady _ => "service not ready [details redacted]"
  | notFound _ => "not found [details redacted]"
  | providerNotFound _ => "provider not found [details redacted]"
  | transport message =>
    if contains (toAsciiLowercase message) "timed out" then
      "upstream transport timed out [details redacted]"
    else "upstream transport error [details redacted]"
  | upstream status body =>
    "upstream returned HTTP " ++ toString status ++ ": " ++ upstreamAuditCategory status body
  | upstreamProtocol message =>
    if containsToolProtocolMarker message then "upstream tool protocol error [details redacted]"
    else "upstream protocol error [details redacted]"
  | toolArgumentsInvalid _ _ _ =>
    "upstream tool arguments failed strict schema validation " ++
      "[value and validation paths redacted]"
  | io _ => "I/O error [details redacted]"
  | json _ => "JSON error [details redacted]"

end AppError

end RouteSmith.Model
