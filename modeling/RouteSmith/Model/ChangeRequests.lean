import RouteSmith.Json.Render
import RouteSmith.Model.Governance
import Mathlib.Logic.Function.Basic

/-! # Change requests

A change of high risk is requested by one administrator and approved by another before it is
applied. The requests stand in the governance document, which is changed under a lock and written
to a store that may refuse.
-/

namespace RouteSmith.Model

open Numeric Store Text

structure ChangeRequestInput where
  action : String
  target : String
  payload : Json := .null
  reason : String

structure ChangeApproval where
  actorId : String
  actorName : String
  approvedAtMs : U64

inductive ChangeStatus where
  | pendingSecondApproval
  | approved
  | applied
  deriving DecidableEq

structure ChangeRequest where
  id : String
  action : String
  target : String
  payload : Json
  payloadSha256 : String
  reason : String
  risk : String := "high"
  status : ChangeStatus
  requestedBy : String
  requestedByName : String
  approvals : List ChangeApproval
  createdAtMs : U64
  updatedAtMs : U64
  appliedAtMs : Option U64 := none

/-- A project policy as it is stored, with the project that it is for. -/
structure StoredPolicy where
  organizationId : String
  projectId : String
  environmentId : String
  policy : ProjectPolicy
  updatedBy : String
  updatedAtMs : U64

def StoredPolicy.key (policy : StoredPolicy) : String :=
  policy.organizationId ++ "/" ++ policy.projectId ++ "/" ++ policy.environmentId

structure GovernanceDocument where
  projectPolicies : NameMap StoredPolicy := ∅
  changeRequests : NameMap ChangeRequest := ∅

/-- The text of JSON values, the digest of texts, the identifiers drawn and the reader of
policies. -/
structure GovernanceEnv where
  writer : Json.Writer
  sha256 : String → String
  uuid : ℕ → String
  readPolicy : Json → Except AppError StoredPolicy

/-! ## Checks -/

def supportedChanges : List String :=
  ["project_policy.upsert", "provider.allowlist_change", "routing.cloud_first",
    "budget.hard_limit", "identity.permission", "model.production_promotion",
    "data_egress.change", "database.major_migration", "secret.rotation"]

def validateChangeInput (env : GovernanceEnv) (input : ChangeRequestInput) :
    Except AppError Unit := do
  if !supportedChanges.contains input.action then
    .error (.invalidRequest "unsupported high-risk change action")
  if isEmpty (trim input.target) || 240 < len input.target then
    .error (.invalidRequest "change request target must contain 1-240 characters")
  if len (trim input.reason) < 8 || 1000 < len input.reason then
    .error (.invalidRequest "change request reason must contain 8-1000 characters")
  if 64 * 1024 < len (env.writer.write input.payload) then
    .error (.invalidRequest "change request payload exceeds 64 KiB")

def validTenantIdentifier (value : String) : Bool :=
  !isEmpty value && len value ≤ 128 &&
    value.toList.all fun c => c.isAlphanum || c = '.' || c = '_' || c = ':' || c = '-'

def validAllowlist (values : List String) : Bool :=
  values.length ≤ 256 && values.all fun value => !isEmpty (trim value) && len value ≤ 160

def validateProjectPolicy (policy : StoredPolicy) : Except AppError Unit := do
  if !([policy.organizationId, policy.projectId, policy.environmentId].all
    validTenantIdentifier) then
    .error (.invalidRequest "project policy contains an invalid tenant identifier")
  if !policy.policy.cloudEnabled && policy.policy.maximumMode ≠ .localStrict then
    .error (.invalidRequest "cloud-disabled project policy must use local_strict maximum mode")
  if !([policy.policy.allowedProviders, policy.policy.allowedModels, policy.policy.allowedRegions,
      policy.policy.allowedApiVersions].all validAllowlist) then
    .error (.invalidRequest "project policy allowlists contain invalid entries")

/-- The digest of a payload. The members of an object are written in the order of their names, as
`canonical_json` puts them. -/
def payloadSha256 (env : GovernanceEnv) (payload : Json) : String :=
  env.sha256 (env.writer.write payload)

/-! ## The store -/

namespace GovernanceDocument

/-- A changed document is kept if the store takes it. -/
def saveOrRestore {α : Type} (saved : Except AppError Unit) (changed previous : GovernanceDocument)
    (result : α) : Except AppError α × GovernanceDocument :=
  match saved with
  | .ok _ => (.ok result, changed)
  | .error error => (.error error, previous)

def setRequest (doc : GovernanceDocument) (request : ChangeRequest) : GovernanceDocument :=
  { doc with changeRequests := doc.changeRequests.insert request.id request }

def newRequest (env : GovernanceEnv) (drawn : ℕ) (now : U64) (actorId actorName : String)
    (input : ChangeRequestInput) : ChangeRequest where
  id := "chg_" ++ env.uuid drawn
  action := input.action
  target := input.target
  payload := input.payload
  payloadSha256 := payloadSha256 env input.payload
  reason := trim input.reason
  status := .pendingSecondApproval
  requestedBy := actorId
  requestedByName := actorName
  approvals := [⟨actorId, actorName, now⟩]
  createdAtMs := now
  updatedAtMs := now

def createChangeRequest (doc : GovernanceDocument) (env : GovernanceEnv) (drawn : ℕ) (now : U64)
    (actorId actorName : String) (input : ChangeRequestInput) (saved : Except AppError Unit) :
    Except AppError ChangeRequest × GovernanceDocument :=
  match validateChangeInput env input with
  | .error error => (.error error, doc)
  | .ok _ =>
    let request := newRequest env drawn now actorId actorName input
    saveOrRestore saved (doc.setRequest request) doc request

def approveChangeRequest (doc : GovernanceDocument) (requestId actorId actorName : String)
    (now : U64) (saved : Except AppError Unit) :
    Except AppError ChangeRequest × GovernanceDocument :=
  match doc.changeRequests.lookup requestId with
  | none => (.error (.notFound "change request not found"), doc)
  | some request =>
    if request.status = .applied then
      (.error (.stateConflict "change request has already been applied"), doc)
    else if request.approvals.any (·.actorId = actorId) then
      (.error (.invalidRequest "the same administrator cannot provide both approvals"), doc)
    else
      let request := { request with
        approvals := request.approvals ++ [⟨actorId, actorName, now⟩]
        status := .approved
        updatedAtMs := now }
      saveOrRestore saved (doc.setRequest request) doc request

def isApproved (request : ChangeRequest) : Bool :=
  request.status = .approved && 2 ≤ request.approvals.length

def approvedChange (doc : GovernanceDocument) (requestId : String) :
    Except AppError ChangeRequest :=
  match doc.changeRequests.lookup requestId with
  | none => .error (.notFound "change request not found")
  | some request =>
    if isApproved request then .ok request
    else .error (.forbidden "high-risk change requires two distinct administrator approvals")

def verifyApprovedChange (doc : GovernanceDocument) (env : GovernanceEnv)
    (requestId action target : String) (payload : Json) : Except AppError ChangeRequest := do
  let request ← doc.approvedChange requestId
  if request.action = action ∧ request.target = target ∧
      request.payloadSha256 = payloadSha256 env payload then
    return request
  else .error (.forbidden
    "approved change request does not match this action, target, and payload")

def markChangeApplied (doc : GovernanceDocument) (requestId : String) (now : U64)
    (saved : Except AppError Unit) : Except AppError Unit × GovernanceDocument :=
  match doc.approvedChange requestId with
  | .error error => (.error error, doc)
  | .ok request =>
    saveOrRestore saved (doc.setRequest { request with
      status := .applied, appliedAtMs := some now, updatedAtMs := now }) doc ()

/-- `apply_project_policy` up to its second critical section. -/
def readApprovedPolicy (doc : GovernanceDocument) (env : GovernanceEnv) (requestId actorId : String)
    (now : U64) : Except AppError (ChangeRequest × StoredPolicy) := do
  let request ← doc.approvedChange requestId
  if request.action ≠ "project_policy.upsert" then
    .error (.invalidRequest "change request is not a project policy update")
  let policy ← env.readPolicy request.payload
  validateProjectPolicy policy
  return (request, { policy with updatedBy := actorId, updatedAtMs := now })

/-- The second critical section of `apply_project_policy`. -/
def storePolicy (doc : GovernanceDocument) (requestId : String) (policy : StoredPolicy) (now : U64)
    (saved : Except AppError Unit) : Except AppError Unit × GovernanceDocument :=
  match doc.changeRequests.lookup requestId with
  | none => (.error (.notFound "change request not found"),
      { doc with projectPolicies := doc.projectPolicies.insert policy.key policy })
  | some request =>
    saveOrRestore saved
      ({ doc with projectPolicies := doc.projectPolicies.insert policy.key policy }.setRequest
        { request with status := .applied, appliedAtMs := some now, updatedAtMs := now }) doc ()

end GovernanceDocument

end RouteSmith.Model
