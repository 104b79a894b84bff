import RouteSmith.Control.Pipeline
import RouteSmith.Model.JavaGateway.Translator

/-! # The Java gateway's request pipeline

`GatewayService.exchange` and the idempotency store it uses. A request is a pipeline of commands to
the stores and the upstreams; the requests of a gateway run side by side, their commands carried out
one at a time in any order. A task that a pipeline waits for goes on when the pipeline is dropped.
-/

namespace RouteSmith.Model.JavaGateway

open Control Store

/-! ## Configuration and requests -/

/-- What the gateway's code reads from its configuration and from the libraries it uses. -/
structure Gateway where
  mapper : JsonNode.Mapper
  sha256 : String → String
  h2 : Bool
  maxRequestBytes : ℕ

structure Provider where
  id : String
  baseUrl : Option String
  protocol : Protocol

structure Route where
  requestedModel : String
  upstreamModel : String
  provider : Provider

/-- A request as the gateway receives it. The plan is what the router makes of it. -/
structure ClientRequest where
  clientProtocol : Protocol
  request : ObjectNode
  idempotencyKey : Option String
  clientKeyId : String
  tenantId : String
  requestId : String
  monthlyLimit : ℤ
  plan : Except Throwable (List Route)

def ClientRequest.streamRequested (r : ClientRequest) : Bool :=
  (r.request.path "stream").asBoolean false

/-! ## The idempotency store -/

structure IdempotencyRow where
  requestHash : String
  responseStatus : ℕ
  responseBody : String
  deriving DecidableEq

/-- `idempotency_responses`, by client key and idempotency key. -/
abbrev Responses := AList fun _ : String × String => IdempotencyRow

structure CachedResponse where
  status : ℕ
  body : JsonNode

/-- `[A-Za-z0-9._:-]{1,128}` -/
def validateKey (key : String) : Except Throwable Unit :=
  let valid := fun c : Char =>
    ('A' ≤ c && c ≤ 'Z') || ('a' ≤ c && c ≤ 'z') || ('0' ≤ c && c ≤ '9') ||
      c = '.' || c = '_' || c = ':' || c = '-'
  if key.toList.all valid && 1 ≤ key.toList.length && key.toList.length ≤ 128 then .ok ()
  else badRequest "invalid Idempotency-Key"

namespace Gateway

variable (g : Gateway)

def hash (request : ObjectNode) : String := g.sha256 (g.mapper.write (.object request))

def find (clientKeyId : String) (key : Option String) (request : ObjectNode)
    (responses : Responses) : Except Throwable (Option CachedResponse) :=
  match key with
  | none => .ok none
  | some key =>
    if isBlank key then .ok none
    else do
      validateKey key
      match responses.lookup (clientKeyId, key) with
      | none => .ok none
      | some row =>
        match g.mapper.readTree row.responseBody with
        | none => .error (.illegalState "unable to deserialize idempotent response")
        | some body =>
          if row.requestHash ≠ g.hash request then
            .error (.gatewayException .conflict
              "idempotency key was already used with a different request")
          else .ok (some ⟨row.responseStatus, body⟩)

/-- The first response saved under a key stays; both dialects do nothing for any other. -/
def save (clientKeyId : String) (key : Option String) (request : ObjectNode) (status : ℕ)
    (body : JsonNode) (responses : Responses) : Except Throwable Responses :=
  match key with
  | none => .ok responses
  | some key =>
    if isBlank key then .ok responses
    else do
      validateKey key
      if (responses.lookup (clientKeyId, key)).isSome then return responses
      else return responses.insert (clientKeyId, key) ⟨g.hash request, status, g.mapper.write body⟩

end Gateway

/-! ## Commands -/

structure UsageRecord where
  requestId : String
  clientKeyId : String
  tenantId : String
  provider : String
  requestedModel : String
  upstreamModel : String
  clientProtocol : Protocol
  status : ℕ
  inputTokens : ℤ
  outputTokens : ℤ
  idempotentReplay : Bool

/-- The head and the text of an upstream's response, with the identifier and the time that a
translation of it makes up. -/
structure UpstreamResponse where
  status : ℕ
  body : String
  freshId : String
  created : ℤ

/-- What a pipeline asks of the stores and the upstreams. -/
inductive Command where
  | find (clientKeyId : String) (key : Option String) (request : ObjectNode)
  | record (usage : UsageRecord)
  | reserve (input : ReserveInput)
  | upstream (uri : String) (request : ObjectNode)
  | settle (reservationId : String) (actualTokens : ℤ)
  | save (clientKeyId : String) (key : Option String) (request : ObjectNode) (status : ℕ)
      (body : JsonNode)
  | release (reservationId : String)

abbrev Answer : Command → Type
  | .find _ _ _ => Option CachedResponse
  | .record _ => Unit
  | .reserve _ => Reservation
  | .upstream _ _ => UpstreamResponse
  | .settle _ _ => Unit
  | .save _ _ _ _ _ => Unit
  | .release _ => Unit

/-- A body that is passed on as it arrives. What is left to do when it ends needs the reservation
and the usage. -/
structure RawStream where
  reservation : Reservation
  usage : UsageRecord

inductive Body where
  | json (node : JsonNode)
  -- a finite stream made of a finished response
  | synthetic (node : JsonNode)
  | raw (stream : RawStream)

structure ProxyResponse where
  status : ℕ
  body : Body
  selectedProvider : String
  selectedModel : String

/-- A command that a pipeline waits for. -/
structure Call where
  command : Command
  -- what goes on when nobody waits for it any more
  left : List Command
  -- whether the timeout of an attempt is over it
  timed : Bool

abbrev Flow (α : Type) := Pipeline Call (fun call => Answer call.command) Throwable α

abbrev perform (call : Call) : Flow (Answer call.command) := Pipeline.perform call

/-- A command of a thread of its own. -/
def blocking (command : Command) : Flow (Answer command) := perform ⟨command, [command], false⟩

/-- A task of a thread of its own, which stops where a command of it fails. -/
def blockingRun (timed : Bool) : List Command → Flow Unit
  | [] => return ()
  | command :: rest => do
    let _ ← perform ⟨command, command :: rest, timed⟩
    blockingRun timed rest

/-- An exchange with an upstream is given up when nobody waits for it. -/
def exchangeToMono (uri : String) (request : ObjectNode) : Flow UpstreamResponse :=
  perform ⟨.upstream uri request, [], true⟩

/-! ## The pipeline of a request -/

def successful (status : ℕ) : Bool := 200 ≤ status && status < 300

def retryable (status : ℕ) : Bool := status = 429 || 500 ≤ status

def mapTerminalError (error : Throwable) : Throwable :=
  match error with
  | .timeout => .gatewayException .gatewayTimeout "all eligible upstream providers timed out"
  | .webClientRequest =>
    .gatewayException .badGateway "all eligible upstream providers were unreachable"
  | error => error

def normalizeBaseUrl (baseUrl : Option String) : Except Throwable String :=
  match baseUrl with
  | none => .error (.gatewayException .serviceUnavailable "provider base URL is not configured")
  | some baseUrl =>
    if isBlank baseUrl then
      .error (.gatewayException .serviceUnavailable "provider base URL is not configured")
    else if baseUrl.toList.getLast? = some '/' then .ok (String.ofList baseUrl.toList.dropLast)
    else .ok baseUrl

def ClientRequest.rawStream (r : ClientRequest) (route : Route) : Bool :=
  r.streamRequested && r.clientProtocol = route.provider.protocol

def ClientRequest.usage (r : ClientRequest) (route : Route) (status : ℕ)
    (inputTokens outputTokens : ℤ) : UsageRecord :=
  { requestId := r.requestId
    clientKeyId := r.clientKeyId
    tenantId := r.tenantId
    provider := route.provider.id
    requestedModel := route.requestedModel
    upstreamModel := route.upstreamModel
    clientProtocol := r.clientProtocol
    status
    inputTokens
    outputTokens
    idempotentReplay := false }

namespace Gateway

variable (g : Gateway)

def validateRequest (request : ObjectNode) : Except Throwable Unit := do
  let model := request.path "model"
  if model.isAbsent || isBlank (model.asText g.mapper) then badRequest "model is required"
  if (requireMessages request).toOption.isNone then
    badRequest "messages must be a non-empty array"
  if g.maxRequestBytes < (g.mapper.write (.object request)).utf8ByteSize then
    .error (.gatewayException .payloadTooLarge "request body exceeds configured limit")

def inputTokens (response : JsonNode) (protocol : Protocol) : ℤ :=
  let field := if protocol = .openai then "prompt_tokens" else "input_tokens"
  ((response.path "usage").path field).asInt g.mapper 0

def outputTokens (response : JsonNode) (protocol : Protocol) : ℤ :=
  let field := if protocol = .openai then "completion_tokens" else "output_tokens"
  ((response.path "usage").path field).asInt g.mapper 0

def parseBody (rawBody : String) : JsonNode :=
  (g.mapper.readTree rawBody).getD (.object [("raw", .text rawBody)])

def replay (r : ClientRequest) (cached : CachedResponse) : Flow ProxyResponse := do
  let model := (r.request.path "model").asText g.mapper
  blockingRun false [.record {
    requestId := r.requestId
    clientKeyId := r.clientKeyId
    tenantId := r.tenantId
    provider := "idempotency-cache"
    requestedModel := model
    upstreamModel := model
    clientProtocol := r.clientProtocol
    status := cached.status
    inputTokens := g.inputTokens cached.body r.clientProtocol
    outputTokens := g.outputTokens cached.body r.clientProtocol
    idempotentReplay := true }]
  return ⟨cached.status, .json cached.body, "idempotency-cache", model⟩

/-- What the client is answered with, out of an upstream's response. -/
def clientBody (r : ClientRequest) (route : Route) (response : UpstreamResponse) : JsonNode :=
  let parsed := g.parseBody response.body
  if successful response.status then
    JavaGateway.response g.mapper route.provider.protocol r.clientProtocol parsed
      ⟨route.requestedModel, response.freshId, response.created⟩
  else parsed

def completeBufferedAttempt (r : ClientRequest) (route : Route) (reservation : Reservation)
    (response : UpstreamResponse) : Flow ProxyResponse := do
  let status := response.status
  let body := g.clientBody r route response
  let input := g.inputTokens body r.clientProtocol
  let output := g.outputTokens body r.clientProtocol
  let actual := if input + output = 0 then reservation.row.reservedTokens else input + output
  blockingRun true (.record (r.usage route status input output) ::
    if successful status then
      .settle reservation.reservationId actual ::
        if r.streamRequested then []
        else [.save r.clientKeyId r.idempotencyKey r.request status body]
    else [.release reservation.reservationId])
  return ⟨status, if successful status && r.streamRequested then .synthetic body else .json body,
    route.provider.id, route.upstreamModel⟩

/-- The upstream request of a route, and where it goes; both are put together before anything of the
attempt runs. -/
def assemble (r : ClientRequest) (route : Route) : Except Throwable (String × ObjectNode) := do
  let upstreamRequest ←
    JavaGateway.request g.mapper r.clientProtocol route.provider.protocol r.request
      route.upstreamModel
  let upstreamRequest := if r.streamRequested && !r.rawStream route
    then upstreamRequest.put "stream" (.boolean false) else upstreamRequest
  let path := if route.provider.protocol = .openai then "/v1/chat/completions" else "/v1/messages"
  return ((← normalizeBaseUrl route.provider.baseUrl) ++ path, upstreamRequest)

/-- The routes left to try, the first of them first. -/
def attempt (r : ClientRequest) (reservation : Reservation) :
    List Route → Except Throwable (Flow ProxyResponse)
  | [] => .error .indexOutOfBounds
  | route :: rest => do
    let (uri, upstreamRequest) ← g.assemble r route
    let exchanged : Flow ProxyResponse := do
      let response ← exchangeToMono uri upstreamRequest
      if retryable response.status && !rest.isEmpty then .fail .retryNextRoute
      else if r.rawStream route && successful response.status then
        return ⟨response.status,
          .raw ⟨reservation, r.usage route response.status
            (estimateInputTokens g.mapper r.request) 0⟩,
          route.provider.id, route.upstreamModel⟩
      else
        let rawBody := if response.body = "" then "\x7b\x7d" else response.body
        g.completeBufferedAttempt r route reservation { response with body := rawBody }
    return exchanged.onErrorResume fun error =>
      if error = .retryNextRoute then .assembled (attempt r reservation rest)
      else if !rest.isEmpty then .assembled (attempt r reservation rest)
      else .fail error

def exchangeUncached (r : ClientRequest) : Flow ProxyResponse := do
  let routes ← Pipeline.ofExcept r.plan
  let reservation ← blocking (.reserve {
    requestId := r.requestId
    tenantId := r.tenantId
    clientKeyId := r.clientKeyId
    tokenLimit := r.monthlyLimit
    requestedTokens := reservationTokens g.mapper r.request })
  match g.attempt r reservation routes with
  -- thrown while the first attempt is put together: the handler below is not there yet
  | .error error => .fail error
  | .ok attempts => attempts.onErrorResume fun error => do
    (blockingRun false [.release reservation.reservationId]).onErrorResume fun _ => return ()
    .fail (mapTerminalError error)

def exchange (r : ClientRequest) : Flow ProxyResponse :=
  match g.validateRequest r.request with
  | .error error => .fail error
  | .ok () => do
    match ← blocking (.find r.clientKeyId r.idempotencyKey r.request) with
    | some cached => g.replay r cached
    | none => g.exchangeUncached r

end Gateway

/-! ## Carrying out commands -/

structure Stores where
  budgets : Tables
  responses : Responses

/-- A transaction of the budget service, alone on the tables while it runs. -/
def Stores.transact {α : Type} (stores : Stores) (t : Txn Row Throwable α) :
    Except Throwable α × Stores :=
  match t.run stores.budgets ∅ with
  | .ok (a, w) => (.ok a, { stores with budgets := w ∪ stores.budgets })
  | .error e => (.error e, stores)

/-- What goes wrong outside the gateway's code. -/
inductive Fault where
  | dataAccess
  | webClientRequest
  deriving DecidableEq

def Fault.throwable : Fault → Throwable
  | dataAccess => .dataAccess
  | webClientRequest => .webClientRequest

/-- What becomes of a command: it is answered, an upstream's response being given; or it fails,
whether or not it has taken effect. -/
inductive Event where
  | answered (moment : Moment) (response : UpstreamResponse)
  | faulted (fault : Fault) (moment : Moment) (effect : Bool)

structure CarriedOut (command : Command) where
  result : Except Throwable (Answer command)
  stores : Stores
  -- the reservation made, where the command has made one
  made : Option String
  -- the reservation settled, where the command has settled one
  settled : Option String

def reservationOf : (command : Command) → Except Throwable (Answer command) → Option String
  | .reserve _, .ok reservation => some reservation.reservationId
  | _, _ => none

def settledOf : (command : Command) → Except Throwable (Answer command) → Option String
  | .settle reservationId _, .ok _ => some reservationId
  | _, _ => none

namespace Gateway

variable (g : Gateway)

def execute (moment : Moment) (response : UpstreamResponse) (stores : Stores) :
    (command : Command) → Except Throwable (Answer command) × Stores
  | .find clientKeyId key request => (g.find clientKeyId key request stores.responses, stores)
  | .record _ => (.ok (), stores)
  | .reserve input => stores.transact (reserve g.h2 input moment)
  | .upstream _ _ => (.ok response, stores)
  | .settle reservationId actualTokens =>
    stores.transact (settle reservationId actualTokens moment.now)
  | .save clientKeyId key request status body =>
    match g.save clientKeyId key request status body stores.responses with
    | .ok responses => (.ok (), { stores with responses })
    | .error e => (.error e, stores)
  | .release reservationId => stores.transact (release reservationId moment.now)

def carryOut (command : Command) (event : Event) (stores : Stores) : CarriedOut command :=
  match event with
  | .answered moment response =>
    let (result, after) := g.execute moment response stores command
    ⟨result, after, reservationOf command result, settledOf command result⟩
  | .faulted fault moment effect =>
    let (result, after) := g.execute moment ⟨0, "", "", 0⟩ stores command
    if effect then
      ⟨.error fault.throwable, after, reservationOf command result, settledOf command result⟩
    else ⟨.error fault.throwable, stores, none, none⟩

end Gateway

/-! ## Requests side by side -/

inductive Outcome where
  | answered (response : ProxyResponse)
  | failed (error : Throwable)
  | cancelled
  | streamed

inductive Phase where
  | running (flow : Flow ProxyResponse)
  -- the response is on its way and its body is being passed on
  | streaming (stream : RawStream)
  -- a task that nobody waits for goes on
  | closing (task : List Command) (outcome : Outcome)
  | ended (outcome : Outcome)

def Phase.of (flow : Flow ProxyResponse) : Phase :=
  match flow with
  | .done response =>
    match response.body with
    | .raw stream => .streaming stream
    | _ => .ended (.answered response)
  | .fail error => .ended (.failed error)
  | flow => .running flow

/-- The end of such a task is seen by nobody. -/
def Phase.ofTask (task : List Command) (outcome : Outcome) : Phase :=
  match task with
  | [] => .ended outcome
  | task => .closing task outcome

inductive StreamEnd where
  | completed
  | failed
  | cancelled

/-- What is scheduled for the end of a stream. -/
def RawStream.onEnd (stream : RawStream) : StreamEnd → List Command
  | .completed => [
    .settle stream.reservation.reservationId stream.reservation.row.reservedTokens,
    .record stream.usage]
  | .failed => [.release stream.reservation.reservationId]
  | .cancelled => [.release stream.reservation.reservationId]

/-- A request, the reservations that have been made and settled for it, and how far it has got. -/
structure Entry where
  request : ClientRequest
  made : List String
  settled : List String
  phase : Phase
  -- the tasks that go on since the timeout of an attempt
  tasks : List (List Command)

structure State where
  stores : Stores
  requests : ℕ → Option Entry

def State.initial : State := ⟨⟨∅, ∅⟩, fun _ => none⟩

def State.put (s : State) (i : ℕ) (stores : Stores) (entry : Entry) : State :=
  ⟨stores, Function.update s.requests i (some entry)⟩

inductive Action where
  | submit (i : ℕ) (request : ClientRequest)
  -- the next command of request `i`
  | perform (i : ℕ) (event : Event)
  -- the next command of a task that goes on since a timeout
  | goOn (i task : ℕ) (event : Event)
  | timeOut (i : ℕ)
  -- the client goes away
  | cancel (i : ℕ)
  | endStream (i : ℕ) (ending : StreamEnd)

/-- What is left of a task after its first command. -/
def goesOn {α : Type} (rest : List Command) : Except Throwable α → List Command
  | .ok _ => rest
  | .error _ => []

namespace Gateway

variable (g : Gateway)

/-- A command for request `i` is carried out, and the request goes on as its result says. -/
def advance (s : State) (i : ℕ) (command : Command) (event : Event)
    (next : Except Throwable (Answer command) → Entry) : State :=
  let out := g.carryOut command event s.stores
  let entry := next out.result
  s.put i out.stores { entry with
    made := out.made.toList ++ entry.made
    settled := out.settled.toList ++ entry.settled }

def step (s : State) : Action → State
  | .submit i request =>
    match s.requests i with
    | some _ => s
    | none => s.put i s.stores ⟨request, [], [], .of (g.exchange request), []⟩
  | .perform i event =>
    match s.requests i with
    | none => s
    | some entry =>
      match entry.phase with
      | .running (.call call next) =>
        g.advance s i call.command event fun r => { entry with phase := .of (next r) }
      | .closing (command :: rest) outcome =>
        g.advance s i command event fun r =>
          { entry with phase := .ofTask (goesOn rest r) outcome }
      | _ => s
  | .goOn i task event =>
    match s.requests i with
    | none => s
    | some entry =>
      match entry.tasks[task]? with
      | some (command :: rest) =>
        g.advance s i command event fun r =>
          { entry with tasks := entry.tasks.set task (goesOn rest r) }
      | _ => s
  | .timeOut i =>
    match s.requests i with
    | none => s
    | some entry =>
      match entry.phase with
      | .running (.call call next) =>
        if call.timed then
          s.put i s.stores { entry with
            phase := .of (next (.error .timeout))
            tasks := call.left :: entry.tasks }
        else s
      | _ => s
  | .cancel i =>
    match s.requests i with
    | none => s
    | some entry =>
      match entry.phase with
      | .running (.call call _) =>
        s.put i s.stores { entry with phase := .ofTask call.left .cancelled }
      | _ => s
  | .endStream i ending =>
    match s.requests i with
    | none => s
    | some entry =>
      match entry.phase with
      | .streaming stream =>
        s.put i s.stores { entry with phase := .ofTask (stream.onEnd ending) .streamed }
      | _ => s

end Gateway

end RouteSmith.Model.JavaGateway
