import RouteSmith.Control.Runs
import RouteSmith.Model.ChangeRequests

/-! # Calls of administrators

The calls that make, approve and apply change requests, and the operations that need one. A call
goes through critical sections, and other calls take theirs in between.
-/

namespace RouteSmith.Model

open Numeric Store

/-- An operation that `require_high_risk_change` guards, with what a change request has to match. -/
structure GatedOperation where
  action : String
  target : String
  payload : Json

/-- `admin_update_enterprise_budget` with a body. -/
def budgetUpdate (body : Json) : GatedOperation := ⟨"budget.hard_limit", "enterprise-budget", body⟩

/-- `apply_project_policy`, which stores the policy of a payload. -/
def policyUpdate (policy : StoredPolicy) (payload : Json) : GatedOperation :=
  ⟨"project_policy.upsert", policy.key, payload⟩

/-- The operation that a change request is for. -/
def ChangeRequest.operation (request : ChangeRequest) : GatedOperation :=
  ⟨request.action, request.target, request.payload⟩

inductive AdminCall where
  | create (actorId actorName : String) (input : ChangeRequestInput)
  | approve (changeId actorId actorName : String)
  | apply (changeId actorId : String)
  | gated (operation : GatedOperation) (changeId : String)

/-- Where a call stands: what its next section does. -/
inductive CallPhase where
  | idle
  | create (actorId actorName : String) (input : ChangeRequestInput)
  | approve (changeId actorId actorName : String)
  /-- `admin_apply_change_request` looks the approved change up. -/
  | apply (changeId actorId : String)
  /-- `apply_project_policy` looks it up again. -/
  | readPolicy (changeId actorId : String)
  | storePolicy (changeId : String) (operation : GatedOperation) (policy : StoredPolicy)
  | verify (operation : GatedOperation) (changeId : String)
  | effect (operation : GatedOperation) (changeId : String)
  | mark (changeId : String)
  | done (result : Except AppError Unit)

def AdminCall.phase : AdminCall → CallPhase
  | create actorId actorName input => .create actorId actorName input
  | approve changeId actorId actorName => .approve changeId actorId actorName
  | apply changeId actorId => .apply changeId actorId
  | gated operation changeId => .verify operation changeId

/-- What an operation comes to: it is done, it fails before it changed anything, or it changes
something and then fails or is given up by its client. -/
inductive EffectOutcome where
  | done
  | failed (error : AppError)
  | interrupted (error : AppError)

/-- What a section is told: the time, what the store says to a write, and what the operation comes
to. -/
structure SectionAnswer where
  now : U64
  saved : Except AppError Unit := .ok ()
  effect : EffectOutcome := .done

inductive AdminEvent where
  | created (changeId : String) (operation : GatedOperation)
  | approved (changeId actorId : String)
  | effect (changeId : String) (operation : GatedOperation)

/-- The gateway: the document, the calls, the number of identifiers drawn, and what has happened,
the latest first. -/
structure AdminSystem where
  doc : GovernanceDocument := {}
  calls : ℕ → CallPhase := fun _ => .idle
  drawn : ℕ := 0
  history : List AdminEvent := []

inductive AdminAction where
  | start (n : ℕ) (call : AdminCall)
  | advance (n : ℕ) (answer : SectionAnswer)

namespace AdminSystem

variable (env : GovernanceEnv) (s : AdminSystem)

def setCall (n : ℕ) (phase : CallPhase) : AdminSystem :=
  { s with calls := Function.update s.calls n phase }

def record (events : List AdminEvent) : AdminSystem := { s with history := events ++ s.history }

def create (n : ℕ) (actorId actorName : String) (input : ChangeRequestInput)
    (answer : SectionAnswer) : AdminSystem :=
  let s := { s with drawn := s.drawn + 1 }
  match s.doc.createChangeRequest env (s.drawn - 1) answer.now actorId actorName input
    answer.saved with
  | (.error error, doc) => { s with doc }.setCall n (.done (.error error))
  | (.ok request, doc) =>
    ({ s with doc }.record
      [.approved request.id actorId, .created request.id request.operation]).setCall n
        (.done (.ok ()))

def approve (n : ℕ) (changeId actorId actorName : String) (answer : SectionAnswer) : AdminSystem :=
  match s.doc.approveChangeRequest changeId actorId actorName answer.now answer.saved with
  | (.error error, doc) => { s with doc }.setCall n (.done (.error error))
  | (.ok request, doc) =>
    ({ s with doc }.record [.approved request.id actorId]).setCall n (.done (.ok ()))

/-- The first section of `admin_apply_change_request`, which does not look at the target. -/
def apply (n : ℕ) (changeId actorId : String) : AdminSystem :=
  match s.doc.approvedChange changeId with
  | .error error => s.setCall n (.done (.error error))
  | .ok change =>
    if change.action = "project_policy.upsert" then s.setCall n (.readPolicy changeId actorId)
    else if change.action = "budget.hard_limit" then
      s.setCall n (.effect (budgetUpdate change.payload) changeId)
    else s.setCall n (.done (.error (.invalidRequest ("approved action " ++ change.action ++
      " must be applied by its dedicated production runbook"))))

def readPolicy (n : ℕ) (changeId actorId : String) (answer : SectionAnswer) : AdminSystem :=
  match s.doc.readApprovedPolicy env changeId actorId answer.now with
  | .error error => s.setCall n (.done (.error error))
  | .ok (request, policy) =>
    s.setCall n (.storePolicy changeId (policyUpdate policy request.payload) policy)

def storePolicy (n : ℕ) (changeId : String) (operation : GatedOperation) (policy : StoredPolicy)
    (answer : SectionAnswer) : AdminSystem :=
  match s.doc.storePolicy changeId policy answer.now answer.saved with
  | (.error error, doc) => { s with doc }.setCall n (.done (.error error))
  | (.ok _, doc) => ({ s with doc }.record [.effect changeId operation]).setCall n (.done (.ok ()))

def verify (n : ℕ) (operation : GatedOperation) (changeId : String) : AdminSystem :=
  match s.doc.verifyApprovedChange env changeId operation.action operation.target
    operation.payload with
  | .error error => s.setCall n (.done (.error error))
  | .ok _ => s.setCall n (.effect operation changeId)

def effect (n : ℕ) (operation : GatedOperation) (changeId : String) (outcome : EffectOutcome) :
    AdminSystem :=
  match outcome with
  | .done => (s.record [.effect changeId operation]).setCall n (.mark changeId)
  | .failed error => s.setCall n (.done (.error error))
  | .interrupted error =>
    (s.record [.effect changeId operation]).setCall n (.done (.error error))

def mark (n : ℕ) (changeId : String) (answer : SectionAnswer) : AdminSystem :=
  match s.doc.markChangeApplied changeId answer.now answer.saved with
  | (result, doc) => { s with doc }.setCall n (.done result)

/-- One section of a call. -/
def advance (n : ℕ) (answer : SectionAnswer) : AdminSystem :=
  match s.calls n with
  | .create actorId actorName input => s.create env n actorId actorName input answer
  | .approve changeId actorId actorName => s.approve n changeId actorId actorName answer
  | .apply changeId actorId => s.apply n changeId actorId
  | .readPolicy changeId actorId => s.readPolicy env n changeId actorId answer
  | .storePolicy changeId operation policy => s.storePolicy n changeId operation policy answer
  | .verify operation changeId => s.verify env n operation changeId
  | .effect operation changeId => s.effect n operation changeId answer.effect
  | .mark changeId => s.mark n changeId answer
  | .idle | .done _ => s

def step (action : AdminAction) : AdminSystem :=
  match action with
  | .start n call =>
    match s.calls n with
    | .idle => s.setCall n call.phase
    | _ => s
  | .advance n answer => s.advance env n answer

end AdminSystem

end RouteSmith.Model
