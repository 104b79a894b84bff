import RouteSmith.Model.Quotas

/-! # The rate limiter of requests

For each key the times at which its checks were accepted, within a window of time. A check has
several keys, and one lock is held from its first test to its last record.
-/

namespace RouteSmith.Model

open Store Text

structure RateLimitConfig where
  enabled : Bool
  windowMs : ℕ
  globalPerMinute : ℕ
  apiKeyPerMinute : ℕ
  ipPerMinute : ℕ
  providerPerMinute : ℕ
  modelPerMinute : ℕ

abbrev RateLimitState := NameMap (List ℕ)

structure RateLimitScope where
  apiKeyId : Option String
  clientIp : Option String
  providerId : Option String
  model : Option String

structure RateRule where
  key : String
  limit : ℕ
  message : String

def pruneRateWindow (state : RateLimitState) (key : String) (windowStart : ℕ) : RateLimitState :=
  state.mapValues fun k timestamps =>
    if k = key then timestamps.dropWhile (· < windowStart) else timestamps

namespace RateLimitConfig

variable (config : RateLimitConfig)

def divCeil (n d : ℕ) : ℕ := (n + d - 1) / d

/-- The error of a check at `now` that meets a full window. -/
def rateLimited (rule : RateRule) (now : ℕ) (timestamps : List ℕ) : AppError :=
  let retryAfterSecs := (timestamps.head?.map fun oldest =>
    max (divCeil (saturate (oldest + config.windowMs) - now) 1000) 1).getD 1
  let windowSeconds := max (divCeil config.windowMs 1000) 1
  .rateLimited (rule.message ++ "; limit=" ++ toString rule.limit ++ "/" ++
    toString windowSeconds ++ "s") retryAfterSecs

/-- The first loop of `check_rules`: the error of the first full window, if any. -/
def testRules (now : ℕ) : RateLimitState → List RateRule → Option AppError × RateLimitState
  | state, [] => (none, state)
  | state, rule :: rules =>
    let state := pruneRateWindow state rule.key (now - config.windowMs)
    match state.lookup rule.key with
    | some timestamps =>
      if 0 < rule.limit ∧ rule.limit ≤ timestamps.length then
        (some (config.rateLimited rule now timestamps), state)
      else testRules now state rules
    | none => testRules now state rules

/-- The second loop. -/
def recordRules (now : ℕ) (state : RateLimitState) (rules : List RateRule) : RateLimitState :=
  rules.foldl (fun state rule =>
    if rule.limit = 0 then state
    else state.insert rule.key ((state.lookup rule.key).getD [] ++ [now])) state

def dropOld (windowStart : ℕ) (state : RateLimitState) : RateLimitState :=
  NameMap.retain (state.mapValues fun _ timestamps => timestamps.dropWhile (· < windowStart))
    fun _ timestamps => !timestamps.isEmpty

def checkRules (now : ℕ) (state : RateLimitState) (rules : List RateRule) :
    Except AppError Unit × RateLimitState :=
  match config.testRules now state rules with
  | (some error, state) => (.error error, state)
  | (none, state) => (.ok (), dropOld (now - config.windowMs) (recordRules now state rules))

def providerRule (providerId : String) : RateRule where
  key := "provider:" ++ providerId
  limit := config.providerPerMinute
  message := "provider request rate limit exceeded"

def modelRule (model : String) : RateRule where
  key := "model:" ++ model
  limit := config.modelPerMinute
  message := "model request rate limit exceeded"

def scopeRules (scope : RateLimitScope) : List RateRule :=
  [⟨"global:inference", config.globalPerMinute, "global request rate limit exceeded"⟩,
    ⟨"api-key:" ++ scope.apiKeyId.getD "legacy-router-token", config.apiKeyPerMinute,
      "API key request rate limit exceeded"⟩] ++
    (scope.clientIp.map fun clientIp =>
      ⟨"ip:" ++ clientIp, config.ipPerMinute, "client IP request rate limit exceeded"⟩).toList ++
    (scope.providerId.map config.providerRule).toList ++
    (scope.model.map config.modelRule).toList

end RateLimitConfig

/-- The two ways to ask the limiter. -/
inductive RateCall where
  | check (scope : RateLimitScope)
  | checkProviderAttempt (providerId model : String)

namespace RateLimitConfig

variable (config : RateLimitConfig)

def rules : RateCall → List RateRule
  | .check scope => config.scopeRules scope
  | .checkProviderAttempt providerId model =>
    [config.providerRule providerId, config.modelRule model]

/-- `check` and `check_provider_attempt`. -/
def call (state : RateLimitState) (now : ℕ) (c : RateCall) :
    Except AppError Unit × RateLimitState :=
  if !config.enabled then (.ok (), state) else config.checkRules now state (config.rules c)

end RateLimitConfig

end RouteSmith.Model
