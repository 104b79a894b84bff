import RouteSmith.Control.Runs
import RouteSmith.Model.Governance
import RouteSmith.Store.Counters

/-! # Local admission

The scheduler lends one execution permit. Requests that find it taken wait in two queues, and a
call goes through critical sections and operations on the permit between which other calls take
theirs. Times and spans of time are in nanoseconds.
-/

namespace RouteSmith.Model

open Numeric Store Text

inductive WorkloadClass where
  | interactive
  | batch
  deriving DecidableEq

def WorkloadClass.debug : WorkloadClass → String
  | interactive => "Interactive"
  | batch => "Batch"

def fromSecs (secs : ℕ) : ℕ := secs * 1000000000

def fromMillis (millis : ℕ) : ℕ := millis * 1000000

def asMillis (nanos : ℕ) : ℕ := nanos / 1000000

/-! ## Configuration -/

structure LocalSchedulerConfig where
  executingPerUser : ℕ := 1
  queuedPerUser : ℕ := 2
  globalInteractiveQueue : ℕ := 16
  globalBatchQueue : ℕ := 16
  overflowAfter : ℕ := fromSecs 5
  strictWait : ℕ := fromSecs 60

namespace LocalSchedulerConfig

/-- `env_usize` and `env_u64`: what a variable says, if it is a number. -/
def envNumber (env : String → Option String) (name : String) (default : ℕ) : ℕ :=
  ((env name).bind parseU64).getD default

def fromEnv (env : String → Option String) : Except AppError LocalSchedulerConfig :=
  let config : LocalSchedulerConfig :=
    { executingPerUser := envNumber env "MODELPORT_LOCAL_EXECUTING_PER_USER" 1
      queuedPerUser := envNumber env "MODELPORT_LOCAL_QUEUED_PER_USER" 2
      globalInteractiveQueue := envNumber env "MODELPORT_LOCAL_QUEUE_GLOBAL" 16
      globalBatchQueue := envNumber env "MODELPORT_BATCH_QUEUE_GLOBAL" 16
      overflowAfter := fromSecs (envNumber env "MODELPORT_LOCAL_OVERFLOW_AFTER_SECONDS" 5)
      strictWait := fromSecs (envNumber env "MODELPORT_LOCAL_STRICT_WAIT_SECONDS" 60) }
  if config.executingPerUser ≠ 1 ∨ config.queuedPerUser ≠ 2 ∨ config.globalInteractiveQueue ≠ 16 ∨
      config.overflowAfter ≠ fromSecs 5 ∨ config.strictWait ≠ fromSecs 60 then
    .error (.config
      ("the 40-user baseline requires local limits 1 executing / 2 queued per user, " ++
      "global queue 16, overflow 5s, strict wait 60s"))
  else .ok config

def globalQueue (config : LocalSchedulerConfig) : WorkloadClass → ℕ
  | .interactive => config.globalInteractiveQueue
  | .batch => config.globalBatchQueue

end LocalSchedulerConfig

/-! ## The state behind the lock -/

inductive LocalAdmission where
  | acquired
  | overflowToCloud
  deriving DecidableEq

/-- A place in a queue, with the call that its notifier wakes. -/
structure QueuedRequest where
  id : U64
  enqueued : ℕ
  notify : ℕ
  deriving DecidableEq

structure SchedulerState where
  runningByUser : Counters := ∅
  queuedByUser : Counters := ∅
  interactive : List QueuedRequest := []
  batch : List QueuedRequest := []
  nextId : U64 := 0
  serviceTimeMs : U64 := .ofNat _ 5000

/-- The arguments of a call of `acquire`. -/
structure AcquireCall where
  userId : String
  mode : HybridMode
  workload : WorkloadClass
  cloudAvailable : Bool

/-- A mode in which a request may go to the cloud instead of waiting. -/
def AcquireCall.overflows (call : AcquireCall) : Prop :=
  (call.mode = .localFirst ∨ call.mode = .balanced) ∧ call.cloudAvailable = true

instance (call : AcquireCall) : Decidable call.overflows :=
  inferInstanceAs (Decidable ((_ ∨ _) ∧ _))

abbrev AcquireResult := Except AppError LocalAdmission

def retryAfterSeconds (serviceTimeMs : U64) : ℕ := max 1 (min ((serviceTimeMs.val + 999) / 1000) 60)

namespace SchedulerState

variable (state : SchedulerState) (config : LocalSchedulerConfig)

def queue : WorkloadClass → List QueuedRequest
  | .interactive => state.interactive
  | .batch => state.batch

def setQueue (workload : WorkloadClass) (entries : List QueuedRequest) : SchedulerState :=
  match workload with
  | .interactive => { state with interactive := entries }
  | .batch => { state with batch := entries }

def estimatedWait (workload : WorkloadClass) : ℕ :=
  let ahead := state.interactive.length + (if workload = .batch then state.batch.length else 0) +
    state.runningByUser.total
  fromMillis (min (state.serviceTimeMs.val * ahead) (2 ^ 64 - 1))

def retryAfter : ℕ := retryAfterSeconds state.serviceTimeMs

/-- The section of `acquire` that puts a request into its queue, or answers at once. -/
def queueRequest (call : AcquireCall) (notify now : ℕ) :
    Except AcquireResult (U64 × SchedulerState) :=
  if config.queuedPerUser ≤ state.queuedByUser.count call.userId then
    .error (.error (.rateLimited "per-user local queue limit exceeded (2 queued)" state.retryAfter))
  else if config.globalQueue call.workload ≤ (state.queue call.workload).length then
    if call.overflows then .error (.ok .overflowToCloud)
    else .error (.error (.rateLimited
      ("global " ++ call.workload.debug ++ " local queue limit exceeded") state.retryAfter))
  else
    let id := state.nextId + .ofNat _ 1
    let request : QueuedRequest := { id, enqueued := now, notify }
    let state := { state with
      nextId := id, queuedByUser := state.queuedByUser.raise call.userId }
    .ok (id, state.setQueue call.workload (state.queue call.workload ++ [request]))

def isFront (id : U64) (workload : WorkloadClass) (userId : String) : Bool :=
  if config.executingPerUser ≤ state.runningByUser.count userId then false
  else match workload with
    | .interactive => state.interactive.head?.any fun item => item.id = id
    | .batch => state.interactive.isEmpty && state.batch.head?.any fun item => item.id = id

def removeQueued (id : U64) (workload : WorkloadClass) (userId : String) : SchedulerState :=
  { state with queuedByUser := state.queuedByUser.lower userId }.setQueue workload
    ((state.queue workload).eraseP fun item => item.id = id)

/-- The request that `notify_next` wakes. -/
def next? : Option QueuedRequest := state.interactive.head?.or state.batch.head?

/-- The section of a lease's `drop`. -/
def endLease (userId : String) (elapsed : ℕ) : SchedulerState :=
  let elapsedMs := max (min (asMillis elapsed) (2 ^ 64 - 1)) 1
  { state with
    runningByUser := state.runningByUser.lower userId
    serviceTimeMs :=
      if state.serviceTimeMs.val = 0 then .ofNat _ elapsedMs
      else .ofNat _ (min (min (state.serviceTimeMs.val * 4) (2 ^ 64 - 1) + elapsedMs)
        (2 ^ 64 - 1) / 5) }

end SchedulerState

/-! ## Calls -/

/-- Where a call of `acquire`, or the lease that it returned, stands: what comes next. -/
inductive AcquirePhase where
  | idle
  /-- The first `try_acquire_owned`. -/
  | entered
  /-- With the permit, before the section that counts the user. -/
  | permitted
  /-- With the permit, which goes back as the user has reached the limit. -/
  | refused
  | estimating
  | queueing
  /-- In the queue, before `notify_next`. -/
  | queued (id : U64)
  /-- The top of the loop: `is_front`. -/
  | polling (id : U64) (deadline : ℕ)
  /-- At the front, before `try_acquire_owned`. -/
  | front (id : U64) (deadline : ℕ)
  /-- Before the deadline is compared with the clock. -/
  | checking (id : U64) (deadline : ℕ)
  /-- At the `await`. -/
  | waiting (id : U64) (deadline : ℕ)
  /-- With the permit, before `remove_queued`. -/
  | admitted (id : U64)
  /-- With the permit, before the `notify_next` of `remove_queued`. -/
  | unqueued
  /-- With the permit, before the section that counts the user. -/
  | counting
  /-- Past the deadline, before `remove_queued`. -/
  | expired (id : U64)
  /-- Past the deadline, before the `notify_next` of `remove_queued`. -/
  | leaving
  /-- Before `retry_after`. -/
  | answering
  | finished (result : AcquireResult)
  | leased (started : ℕ)
  /-- In `drop`, before the permit goes back. -/
  | releasing
  /-- In `drop`, before `notify_next`. -/
  | released
  /-- The future was dropped at the `await`. -/
  | cancelled (id : U64)

inductive SchedulerAction where
  | start (n : ℕ)
  /-- The next section or operation of a call. -/
  | advance (n : ℕ)
  | dropLease (n : ℕ)
  | cancel (n : ℕ)
  | tick (elapsed : ℕ)

/-- The scheduler with the calls made to it: the permits left, the state behind the lock, where
the calls stand, which of their notifiers hold a notification, and the clock. -/
structure SchedulerSystem where
  execution : ℕ := 1
  state : SchedulerState := {}
  calls : ℕ → AcquirePhase := fun _ => .idle
  notified : ℕ → Bool := fun _ => false
  now : ℕ := 0

namespace SchedulerSystem

variable (config : LocalSchedulerConfig) (call : ℕ → AcquireCall) (s : SchedulerSystem) (n : ℕ)

def setCall (phase : AcquirePhase) : SchedulerSystem :=
  { s with calls := Function.update s.calls n phase }

/-- `try_acquire_owned`. -/
def tryAcquire (taken missed : AcquirePhase) : SchedulerSystem :=
  if s.execution = 0 then s.setCall n missed
  else { s with execution := s.execution - 1 }.setCall n taken

/-- The permit goes back. -/
def giveBack (phase : AcquirePhase) : SchedulerSystem :=
  { s with execution := s.execution + 1 }.setCall n phase

def notifyNext : SchedulerSystem :=
  match s.state.next? with
  | none => s
  | some request => { s with notified := Function.update s.notified request.notify true }

/-- The first critical section of `acquire`. -/
def countOrRefuse (userId : String) : SchedulerSystem :=
  let running := s.state.runningByUser.orDefault userId
  if running.count userId < config.executingPerUser then
    { s with state := { s.state with runningByUser := running.raise userId } }.setCall n
      (.leased s.now)
  else { s with state := { s.state with runningByUser := running } }.setCall n .refused

def estimate (call : AcquireCall) : SchedulerSystem :=
  if call.overflows ∧ config.overflowAfter < s.state.estimatedWait call.workload then
    s.setCall n (.finished (.ok .overflowToCloud))
  else s.setCall n .queueing

def enqueue (call : AcquireCall) : SchedulerSystem :=
  match s.state.queueRequest config call n s.now with
  | .error result => s.setCall n (.finished result)
  | .ok (id, state) => { s with state }.setCall n (.queued id)

def deadline (call : AcquireCall) : ℕ :=
  s.now + if call.mode = .localStrict then config.strictWait else config.overflowAfter

def unqueue (call : AcquireCall) (id : U64) (phase : AcquirePhase) : SchedulerSystem :=
  { s with state := s.state.removeQueued id call.workload call.userId }.setCall n phase

def count (userId : String) : SchedulerSystem :=
  { s with state := { s.state with
      runningByUser := s.state.runningByUser.raise userId } }.setCall n (.leased s.now)

/-- The `await` ends with a notification or when the time is up. -/
def await (id : U64) (deadline : ℕ) : SchedulerSystem :=
  if s.notified n = true then
    { s with notified := Function.update s.notified n false }.setCall n (.polling id deadline)
  else if deadline ≤ s.now then s.setCall n (.polling id deadline)
  else s

/-- The next section or operation of a call. -/
def advance : SchedulerSystem :=
  match s.calls n with
  | .entered => s.tryAcquire n .permitted .estimating
  | .permitted => s.countOrRefuse config n (call n).userId
  | .refused => s.giveBack n .estimating
  | .estimating => s.estimate config n (call n)
  | .queueing => s.enqueue config n (call n)
  | .queued id => s.notifyNext.setCall n (.polling id (s.deadline config (call n)))
  | .polling id deadline =>
    if s.state.isFront config id (call n).workload (call n).userId then
      s.setCall n (.front id deadline)
    else s.setCall n (.checking id deadline)
  | .front id deadline => s.tryAcquire n (.admitted id) (.checking id deadline)
  | .checking id deadline =>
    if deadline ≤ s.now then s.setCall n (.expired id) else s.setCall n (.waiting id deadline)
  | .waiting id deadline => s.await n id deadline
  | .admitted id => s.unqueue n (call n) id .unqueued
  | .unqueued => s.notifyNext.setCall n .counting
  | .counting => s.count n (call n).userId
  | .expired id => s.unqueue n (call n) id .leaving
  | .leaving =>
    if (call n).mode ≠ .localStrict ∧ (call n).cloudAvailable = true then
      s.notifyNext.setCall n (.finished (.ok .overflowToCloud))
    else s.notifyNext.setCall n .answering
  | .answering => s.setCall n (.finished (.error (.rateLimited
      "local_strict request exceeded the 60 second local wait limit" s.state.retryAfter)))
  | .releasing => s.giveBack n .released
  | .released => s.notifyNext.setCall n (.finished (.ok .acquired))
  | .idle | .finished _ | .leased _ | .cancelled _ => s

def step (action : SchedulerAction) : SchedulerSystem :=
  match action with
  | .start n =>
    match s.calls n with
    | .idle => s.setCall n .entered
    | _ => s
  | .advance n => s.advance config call n
  | .dropLease n =>
    match s.calls n with
    | .leased started =>
      { s with state := s.state.endLease (call n).userId (s.now - started) }.setCall n .releasing
    | _ => s
  | .cancel n =>
    match s.calls n with
    | .waiting id _ => s.setCall n (.cancelled id)
    | _ => s
  | .tick elapsed => { s with now := s.now + elapsed }

end SchedulerSystem

end RouteSmith.Model
