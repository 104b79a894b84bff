import RouteSmith.Model.ChangeRequests
import RouteSmith.Model.Control
import RouteSmith.Model.Quotas

/-! # The control store: teams, API keys and quotas

The tables are changed under a lock. A change is written to a store that may refuse; the tables
are then put back as they were. The clock, the identifiers and secrets drawn and the store's
answers are inputs of each operation, SHA-256 is the parameter `sha256`.
-/

namespace RouteSmith.Model

open Numeric Store Text

structure TeamRecord where
  id : String
  name : String
  slug : String
  description : Option String := none
  status : String := "active"
  dailyLimitUsd : F64 := 0
  monthlyLimitUsd : F64 := 0
  allowedModels : List String := []
  allowedProviders : List String := []
  createdAtMs : ℕ
  updatedAtMs : ℕ
  deriving DecidableEq

structure ApiKeyRecord where
  id : String
  userId : String
  username : String
  name : String
  principalType : String := "user"
  purpose : Option String := none
  keyHash : String
  keyPrefix : String
  keyPreview : String
  group : Option String := none
  teamId : Option String := none
  teamName : Option String := none
  allowedModels : List String := []
  allowedProviders : List String := []
  organizationId : String := "org_local"
  projectId : String := "prj_default"
  environmentId : String := "env_default"
  createdAtMs : ℕ
  lastUsedAtMs : Option ℕ := none
  expiresAtMs : Option ℕ := none
  status : String
  ipRestricted : Bool := false
  allowedIps : List String := []
  spendLimitUsd : F64 := 0
  rateLimited : Bool := false
  fiveHourLimitUsd : F64 := 0
  dailyLimitUsd : F64 := 0
  weeklyLimitUsd : F64 := 0
  monthlyLimitUsd : F64 := 0
  deriving DecidableEq

/-- The state behind the lock; `providers` is the part that routing and sending read. -/
structure ControlTables where
  teams : NameMap TeamRecord := ∅
  apiKeys : NameMap ApiKeyRecord := ∅
  apiKeyHashIndex : NameMap String := ∅
  quotas : NameMap QuotaRecord := ∅
  providers : ControlInner := {}

/-- The stored document. -/
structure ControlFile where
  teams : List TeamRecord := []
  apiKeys : List ApiKeyRecord := []
  quotas : List QuotaRecord := []
  providers : ControlInner := {}

/-- The keys' ids by the keys' hashes. -/
def hashIndex (apiKeys : NameMap ApiKeyRecord) : NameMap String :=
  NameMap.collect (fun entry => (entry.2.keyHash, entry.1)) apiKeys.ordered

namespace ControlTables

def rebuildApiKeyHashIndex (inner : ControlTables) : ControlTables :=
  { inner with apiKeyHashIndex := hashIndex inner.apiKeys }

def load (file : ControlFile) : ControlTables :=
  rebuildApiKeyHashIndex
    { teams := NameMap.collect (fun record => (record.id, record)) file.teams
      apiKeys := NameMap.collect (fun record => (record.id, record)) file.apiKeys
      quotas := NameMap.collect (fun record => (record.id, record)) file.quotas
      providers := file.providers }

/-- `save_or_restore_locked`, with the answer of the store. -/
def saveOrRestore {α : Type} (saved : Except AppError Unit) (inner previous : ControlTables)
    (result : α) : Except AppError α × ControlTables :=
  match saved with
  | .ok _ => (.ok result, inner.rebuildApiKeyHashIndex)
  | .error error => (.error error, previous)

/-- An operation whose checks come before its change. -/
def checked {α β : Type} (inner : ControlTables) (checks : Except AppError α)
    (change : α → Except AppError β × ControlTables) : Except AppError β × ControlTables :=
  match checks with
  | .error error => (.error error, inner)
  | .ok a => change a

end ControlTables

/-- An optional change of a field: without a new value the current one stays. -/
def revise {α β : Type} (given : Option α) (current : β) (read : α → Except AppError β) :
    Except AppError β :=
  match given with
  | none => pure current
  | some value => read value

def validateUsdLimit (field : String) (value : F64) : Except AppError F64 :=
  if !value.isFinite || !value.geRat 0 then
    .error (.invalidRequest (field ++ " must be zero or greater"))
  else pure value

/-! ## Teams -/

structure UpsertTeamInput where
  id : Option String := none
  name : String
  slug : Option String := none
  description : Option String := none
  status : Option String := none
  dailyLimitUsd : Option F64 := none
  monthlyLimitUsd : Option F64 := none
  allowedModels : Option (List String) := none
  allowedProviders : Option (List String) := none

def validateTeamName (value : String) : Except AppError String :=
  let value := trim value
  if isEmpty value || 80 < len value then
    .error (.invalidRequest "team name must be 1-80 characters")
  else pure value

def validateTeamSlug (value : String) : Except AppError String :=
  let value := toAsciiLowercase (trim value)
  if isEmpty value || 64 < len value ||
      !value.toList.all fun c => c.isLower || c.isDigit || c = '-' || c = '_' then
    .error (.invalidRequest
      "team slug may only contain lowercase letters, numbers, dashes, and underscores")
  else pure value

def validateTeamStatus (value : String) : Except AppError String :=
  if trim value ∈ ["active", "archived", "disabled"] then pure (trim value)
  else .error (.invalidRequest "invalid team status")

def slugFromName (value uuid : String) : String :=
  let slug := (toAsciiLowercase value).toList.foldl (fun slug c =>
    if c.isAlphanum || c = '-' || c = '_' then slug ++ [c]
    else if isWhitespace c && slug.getLast? != some '-' then slug ++ ['-']
    else slug) []
  if slug.isEmpty then "team-" ++ uuid
  else String.ofList (((slug.dropWhile (· = '-')).rdropWhile (· = '-')).take 64)

/-- The team that a request describes, with no id yet and as created now. -/
def readTeam (input : UpsertTeamInput) (now : ℕ) (slugUuid : String) :
    Except AppError TeamRecord := do
  let name ← validateTeamName input.name
  let slug ← revise input.slug (slugFromName name slugUuid) validateTeamSlug
  let status ← revise input.status "active" validateTeamStatus
  let dailyLimitUsd ← revise input.dailyLimitUsd 0 (validateUsdLimit "dailyLimitUsd")
  let monthlyLimitUsd ← revise input.monthlyLimitUsd 0 (validateUsdLimit "monthlyLimitUsd")
  let allowedModels ← normalizePolicyList (input.allowedModels.getD [])
  let allowedProviders ← normalizePolicyList (input.allowedProviders.getD [])
  let description := (input.description.map trim).filter fun value => !isEmpty value
  return {
    id := "", name, slug, description, status, dailyLimitUsd, monthlyLimitUsd, allowedModels
    allowedProviders, createdAtMs := now, updatedAtMs := now }

namespace ControlTables

def setTeam (inner : ControlTables) (team : TeamRecord) : ControlTables :=
  { inner with
    teams := inner.teams.insert team.id team
    apiKeys := inner.apiKeys.mapValues fun _ key =>
      if key.teamId = some team.id then { key with teamName := some team.name } else key }

def upsertTeam (inner : ControlTables) (input : UpsertTeamInput) (now : ℕ)
    (uuid slugUuid : String) (saved : Except AppError Unit) :
    Except AppError TeamRecord × ControlTables :=
  inner.checked (readTeam input now slugUuid) fun team =>
    if inner.teams.values.any fun other => other.slug = team.slug && input.id ≠ some other.id then
      (.error (.invalidRequest "team slug already exists"), inner)
    else
      let id := givenOrDrawn input.id "team" uuid
      let team := { team with
        id, createdAtMs := ((inner.teams.lookup id).map (·.createdAtMs)).getD now }
      saveOrRestore saved (inner.setTeam team) inner team

def deleteTeam (inner : ControlTables) (teamId : String) (saved : Except AppError Unit) :
    Except AppError Unit × ControlTables :=
  let referencingKeys := inner.apiKeys.values.countP fun key => key.teamId = some teamId
  if 0 < referencingKeys then
    (.error (.invalidRequest ("team is still referenced by " ++ toString referencingKeys ++
      " API key(s); reassign or delete those keys first")), inner)
  else if inner.teams.lookup teamId = none then (.ok (), inner)
  else saveOrRestore saved { inner with teams := inner.teams.erase teamId } inner ()

/-- The id and the name of the team that a key is put in. -/
def resolveTeamRef (inner : ControlTables) (teamId : Option String) :
    Except AppError (Option String × Option String) :=
  match (teamId.map trim).filter fun teamId => !isEmpty teamId with
  | none => pure (none, none)
  | some teamId =>
    match inner.teams.lookup teamId with
    | none => .error (.invalidRequest "team not found")
    | some team => pure (some team.id, some team.name)

end ControlTables

/-! ## API keys -/

structure CreateApiKeyInput where
  userId : String
  username : Option String := none
  name : String
  principalType : Option String := none
  purpose : Option String := none
  group : Option String := none
  teamId : Option String := none
  allowedModels : Option (List String) := none
  allowedProviders : Option (List String) := none
  expiresAt : Option String := none

structure UpdateApiKeyInput where
  name : Option String := none
  group : Option String := none
  teamId : Option String := none
  allowedModels : Option (List String) := none
  allowedProviders : Option (List String) := none
  expiresAt : Option String := none
  status : Option String := none
  ipRestricted : Option Bool := none
  allowedIps : Option (List String) := none
  spendLimitUsd : Option F64 := none
  rateLimited : Option Bool := none
  fiveHourLimitUsd : Option F64 := none
  dailyLimitUsd : Option F64 := none
  weeklyLimitUsd : Option F64 := none
  monthlyLimitUsd : Option F64 := none

structure BindApiKeyScopeInput where
  organizationId : String
  projectId : String
  environmentId : String

def validateKeyName (value : String) : Except AppError String :=
  let name := trim value
  if isEmpty name || 80 < len name then
    .error (.invalidRequest "API key name must be 1-80 characters")
  else pure name

/-- A timestamp in milliseconds; a blank text stands for none. -/
def readExpiry (value : String) : Except AppError (Option ℕ) :=
  if isEmpty (trim value) then pure none
  else
    match parseU64 (trim value) with
    | none => .error (.invalidRequest "expiresAt must be a millisecond timestamp")
    | some expiresAt => pure (some expiresAt)

def maxServiceAccountTtlMs : ℕ := 90 * 24 * 60 * 60 * 1000

/-- What `create_api_key` asks of a service account. -/
def validateServiceAccount (expiresAtMs : Option ℕ) (now : ℕ)
    (allowedModels allowedProviders : List String) (purpose : Option String) :
    Except AppError Unit :=
  match expiresAtMs with
  | none => .error (.invalidRequest "service accounts require an explicit expiresAt timestamp")
  | some expiresAt => do
    refuseIf (maxServiceAccountTtlMs < expiresAt - now)
      "service account lifetime cannot exceed 90 days"
    refuseIf (allowedModels.isEmpty || allowedProviders.isEmpty)
      "service accounts require explicit model and provider scopes"
    refuseIf (purpose.all fun value => len value < 8 || 240 < len value)
      "service account purpose must contain 8-240 characters"

def normalizedTenantId (field value : String) : Except AppError String :=
  let value := trim value
  if !validTenantIdentifier value then
    .error (.invalidRequest
      ("API key " ++ field ++ " must contain 1-128 safe scope characters"))
  else pure value

def previewSecret (value : String) : String :=
  String.ofList (value.toList.take 8 ++ "...".toList ++
    (value.toList.reverse.take 4).reverse)

/-- What a key drawn as hexadecimal digits reads. -/
def newApiKey (drawn : String) : String := "sk-mp-" ++ drawn

section

variable (sha256 : String → String)

/-- The record that a request describes, before its team is looked up. -/
def readApiKey (input : CreateApiKeyInput) (now : ℕ) (uuid drawn : String) :
    Except AppError ApiKeyRecord := do
  let name ← validateKeyName input.name
  let userId := trim input.userId
  refuseIf (isEmpty userId) "userId is required"
  let username := input.username.getD userId
  let allowedModels ← normalizePolicyList (input.allowedModels.getD [])
  let allowedProviders ← normalizePolicyList (input.allowedProviders.getD [])
  let principalType := toAsciiLowercase (trim (input.principalType.getD "user"))
  refuseIf (principalType ∉ ["user", "service_account"])
    "principalType must be user or service_account"
  let purpose := (input.purpose.map trim).filter fun value => !isEmpty value
  let expiresAtMs ← revise input.expiresAt none readExpiry
  refuseIf (expiresAtMs.any (· ≤ now)) "cannot create an expired API key"
  (if principalType = "service_account" then
    validateServiceAccount expiresAtMs now allowedModels allowedProviders purpose
  else pure ())
  let key := newApiKey drawn
  return {
    id := "key_" ++ uuid, userId, username, name, principalType, purpose
    keyHash := sha256 key
    keyPrefix := String.ofList (key.toList.take 12)
    keyPreview := previewSecret key
    group := input.group.filter fun value => !isEmpty (trim value)
    allowedModels, allowedProviders
    createdAtMs := now, expiresAtMs, status := "active" }

namespace ControlTables

def setKey (inner : ControlTables) (record : ApiKeyRecord) : ControlTables :=
  { inner with apiKeys := inner.apiKeys.insert record.id record }

def createApiKey (inner : ControlTables) (input : CreateApiKeyInput) (now : ℕ)
    (uuid drawn : String) (saved : Except AppError Unit) :
    Except AppError (ApiKeyRecord × String) × ControlTables :=
  inner.checked (do
    let record ← readApiKey sha256 input now uuid drawn
    let (teamId, teamName) ← inner.resolveTeamRef input.teamId
    return { record with teamId, teamName }) fun record =>
    saveOrRestore saved (inner.setKey record) inner (record, newApiKey drawn)

end ControlTables

end

namespace ControlTables

/-- The operations on one key look it up first. -/
def onKey {α : Type} (inner : ControlTables) (keyId : String)
    (change : ApiKeyRecord → Except AppError α × ControlTables) :
    Except AppError α × ControlTables :=
  match inner.apiKeys.lookup keyId with
  | none => (.error (.invalidRequest "API key not found"), inner)
  | some record => change record

def revokeApiKey (inner : ControlTables) (keyId : String) (saved : Except AppError Unit) :
    Except AppError Unit × ControlTables :=
  inner.onKey keyId fun record =>
    saveOrRestore saved { inner with
      apiKeys := inner.apiKeys.insert keyId { record with status := "revoked" } } inner ()

/-- The record that `update_api_key` makes of a stored one. -/
def reviseApiKey (inner : ControlTables) (record : ApiKeyRecord) (input : UpdateApiKeyInput)
    (now : ℕ) : Except AppError ApiKeyRecord := do
  let name ← revise input.name record.name validateKeyName
  let group ← revise input.group record.group fun group =>
    pure (if isEmpty (trim group) then none else some (trim group))
  let (teamId, teamName) ← revise input.teamId (record.teamId, record.teamName) fun teamId =>
    inner.resolveTeamRef (some teamId)
  let allowedModels ← revise input.allowedModels record.allowedModels normalizePolicyList
  let allowedProviders ← revise input.allowedProviders record.allowedProviders normalizePolicyList
  let expiresAtMs ← revise input.expiresAt record.expiresAtMs readExpiry
  let status ← revise input.status record.status fun status =>
    if trim status ∈ ["active", "revoked"] then pure (trim status)
    else .error (.invalidRequest "invalid API key status")
  let allowedIps ← revise input.allowedIps record.allowedIps normalizeIpRules
  let spendLimitUsd ← revise input.spendLimitUsd record.spendLimitUsd
    (validateUsdLimit "spendLimitUsd")
  let fiveHourLimitUsd ← revise input.fiveHourLimitUsd record.fiveHourLimitUsd
    (validateUsdLimit "fiveHourLimitUsd")
  let dailyLimitUsd ← revise input.dailyLimitUsd record.dailyLimitUsd
    (validateUsdLimit "dailyLimitUsd")
  let weeklyLimitUsd ← revise input.weeklyLimitUsd record.weeklyLimitUsd
    (validateUsdLimit "weeklyLimitUsd")
  let monthlyLimitUsd ← revise input.monthlyLimitUsd record.monthlyLimitUsd
    (validateUsdLimit "monthlyLimitUsd")
  refuseIf (status = "active" ∧ expiresAtMs.any (· ≤ now)) "cannot activate an expired API key"
  return { record with
    name, group, teamId, teamName, allowedModels, allowedProviders, expiresAtMs, status, allowedIps
    spendLimitUsd, fiveHourLimitUsd, dailyLimitUsd, weeklyLimitUsd, monthlyLimitUsd
    ipRestricted := input.ipRestricted.getD record.ipRestricted
    rateLimited := input.rateLimited.getD record.rateLimited }

def updateApiKey (inner : ControlTables) (keyId : String) (input : UpdateApiKeyInput) (now : ℕ)
    (saved : Except AppError Unit) : Except AppError ApiKeyRecord × ControlTables :=
  inner.onKey keyId fun record =>
    inner.checked (inner.reviseApiKey record input now) fun updated =>
      saveOrRestore saved (inner.setKey updated) inner updated

/-- `normalize_tenant_scope` on the three identifiers of a binding. -/
def normalizeTenantScope (input : BindApiKeyScopeInput) : Except AppError BindApiKeyScopeInput := do
  let organizationId ← normalizedTenantId "organizationId" input.organizationId
  let projectId ← normalizedTenantId "projectId" input.projectId
  let environmentId ← normalizedTenantId "environmentId" input.environmentId
  return { organizationId, projectId, environmentId }

def bindApiKeyScope (inner : ControlTables) (keyId : String) (input : BindApiKeyScopeInput)
    (saved : Except AppError Unit) : Except AppError ApiKeyRecord × ControlTables :=
  inner.checked (normalizeTenantScope input) fun scope =>
    inner.onKey keyId fun record =>
      let updated := { record with
        organizationId := scope.organizationId
        projectId := scope.projectId
        environmentId := scope.environmentId }
      saveOrRestore saved (inner.setKey updated) inner updated

def deleteApiKey (inner : ControlTables) (keyId : String) (saved : Except AppError Unit) :
    Except AppError Unit × ControlTables :=
  inner.onKey keyId fun _ =>
    saveOrRestore saved { inner with apiKeys := inner.apiKeys.erase keyId } inner ()

def deleteUserResources (inner : ControlTables) (userId : String) (saved : Except AppError Unit) :
    Except AppError Unit × ControlTables :=
  saveOrRestore saved { inner with
    apiKeys := inner.apiKeys.mapValues fun _ record =>
      if record.userId = userId then { record with status := "revoked" } else record
    quotas := inner.quotas.eraseEach
      ((inner.quotas.entries.filter fun e => e.2.userId = userId).map Sigma.fst) } inner ()

/-! ## Quotas -/

def resetQuotas (inner : ControlTables) (now : ℕ) : ControlTables :=
  { inner with quotas := resetExpiredQuotas inner.quotas now }

def listQuotas (inner : ControlTables) (now : ℕ) (saved : Except AppError Unit) :
    Except AppError (List QuotaRecord) × ControlTables :=
  saveOrRestore saved (inner.resetQuotas now) inner (inner.resetQuotas now).quotas.values

def upsertQuota (inner : ControlTables) (input : UpsertQuotaInput) (now : ℕ) (uuid : String)
    (saved : Except AppError Unit) : Except AppError QuotaRecord × ControlTables :=
  inner.checked (validateQuotaInput input) fun _ =>
    let quota := newQuota input now uuid
    saveOrRestore saved { inner with quotas := inner.quotas.insert quota.id quota } inner quota

def deleteQuota (inner : ControlTables) (quotaId : String) (saved : Except AppError Unit) :
    Except AppError Unit × ControlTables :=
  saveOrRestore saved { inner with quotas := inner.quotas.erase quotaId } inner ()

end ControlTables

/-! ## Authentication -/

structure ApiKeyPolicy where
  teamId : Option String := none
  ipRestricted : Bool := false
  allowedIps : List String := []
  allowedModels : List String := []
  allowedProviders : List String := []
  teamAllowedModels : List String := []
  teamAllowedProviders : List String := []
  teamDailyLimitUsd : F64 := 0
  teamMonthlyLimitUsd : F64 := 0
  spendLimitUsd : F64 := 0
  rateLimited : Bool := false
  fiveHourLimitUsd : F64 := 0
  dailyLimitUsd : F64 := 0
  weeklyLimitUsd : F64 := 0
  monthlyLimitUsd : F64 := 0
  deriving DecidableEq

structure ClientIdentity where
  userId : String
  username : String
  principalType : String
  apiKeyId : Option String
  apiKeyName : Option String
  apiKeyGroup : Option String
  teamId : Option String
  teamName : Option String
  enforceQuotas : Bool
  apiKeyPolicy : ApiKeyPolicy
  deriving DecidableEq

def ApiKeyRecord.identity (record : ApiKeyRecord) (team : Option TeamRecord) : ClientIdentity where
  userId := record.userId
  username := record.username
  principalType := record.principalType
  apiKeyId := some record.id
  apiKeyName := some record.name
  apiKeyGroup := record.group
  teamId := record.teamId
  teamName := record.teamName
  enforceQuotas := true
  apiKeyPolicy := {
    teamId := record.teamId
    ipRestricted := record.ipRestricted
    allowedIps := record.allowedIps
    allowedModels := record.allowedModels
    allowedProviders := record.allowedProviders
    teamAllowedModels := (team.map (·.allowedModels)).getD []
    teamAllowedProviders := (team.map (·.allowedProviders)).getD []
    teamDailyLimitUsd := (team.map (·.dailyLimitUsd)).getD 0
    teamMonthlyLimitUsd := (team.map (·.monthlyLimitUsd)).getD 0
    spendLimitUsd := record.spendLimitUsd
    rateLimited := record.rateLimited
    fiveHourLimitUsd := record.fiveHourLimitUsd
    dailyLimitUsd := record.dailyLimitUsd
    weeklyLimitUsd := record.weeklyLimitUsd
    monthlyLimitUsd := record.monthlyLimitUsd }

/-- The token that a request presents; `headers` gives the first value of a header if it is
text. -/
def clientToken (headers : String → Option String) : Option String :=
  (headers "x-api-key").or ((headers "authorization").bind (stripStart "Bearer "))

namespace ControlTables

variable (sha256 : String → String)

def authenticateHeaders (inner : ControlTables) (headers : String → Option String) (now : ℕ)
    (saved : Except AppError Unit) : Except AppError (Option ClientIdentity) × ControlTables :=
  match clientToken headers with
  | none => (.ok none, inner)
  | some token =>
    let inner := inner.resetQuotas now
    match inner.apiKeyHashIndex.lookup (sha256 token) with
    | none => (.ok none, inner)
    | some apiKeyId =>
      match inner.apiKeys.lookup apiKeyId with
      | none => (.ok none, inner)
      | some record =>
        if record.status ≠ "active" then (.error .auth, inner)
        else if record.expiresAtMs.any (· ≤ now) then
          let (result, inner) := saveOrRestore saved { inner with
            apiKeys := inner.apiKeys.insert apiKeyId { record with status := "revoked" } } inner ()
          (result.bind fun _ => .error .auth, inner)
        else
          let team := record.teamId.bind inner.teams.lookup
          if record.teamId.isSome ∧ team.all (·.status ≠ "active") then
            (.error (.forbidden "API key team is not active"), inner)
          else
            (.ok (some (record.identity team)), { inner with
              apiKeys := inner.apiKeys.insert apiKeyId { record with lastUsedAtMs := some now } })

end ControlTables

/-! ## Runs -/

/-- The operations of the store that change its tables. -/
inductive ControlAction where
  | upsertTeam (input : UpsertTeamInput) (now : ℕ) (uuid slugUuid : String)
  | deleteTeam (teamId : String)
  | createApiKey (input : CreateApiKeyInput) (now : ℕ) (uuid drawn : String)
  | revokeApiKey (keyId : String)
  | updateApiKey (keyId : String) (input : UpdateApiKeyInput) (now : ℕ)
  | bindApiKeyScope (keyId : String) (input : BindApiKeyScopeInput)
  | deleteApiKey (keyId : String)
  | deleteUserResources (userId : String)
  | listQuotas (now : ℕ)
  | upsertQuota (input : UpsertQuotaInput) (now : ℕ) (uuid : String)
  | deleteQuota (quotaId : String)
  /-- `usage_quota_limits` and `check_quotas` move the quotas on without saving them. -/
  | useQuotas (now : ℕ)
  | authenticateHeaders (headers : String → Option String) (now : ℕ)
  /-- The operations on routes, providers and their credentials change those tables only; some
  save the change and others do not. -/
  | changeProviders (change : ControlInner → ControlInner) (saves : Bool)

/-- One operation, with the answer of the store in case it saves. -/
def ControlTables.step (sha256 : String → String) (inner : ControlTables) :
    ControlAction × Except AppError Unit → ControlTables
  | (.upsertTeam input now uuid slugUuid, saved) =>
    (inner.upsertTeam input now uuid slugUuid saved).2
  | (.deleteTeam teamId, saved) => (inner.deleteTeam teamId saved).2
  | (.createApiKey input now uuid drawn, saved) =>
    (inner.createApiKey sha256 input now uuid drawn saved).2
  | (.revokeApiKey keyId, saved) => (inner.revokeApiKey keyId saved).2
  | (.updateApiKey keyId input now, saved) => (inner.updateApiKey keyId input now saved).2
  | (.bindApiKeyScope keyId input, saved) => (inner.bindApiKeyScope keyId input saved).2
  | (.deleteApiKey keyId, saved) => (inner.deleteApiKey keyId saved).2
  | (.deleteUserResources userId, saved) => (inner.deleteUserResources userId saved).2
  | (.listQuotas now, saved) => (inner.listQuotas now saved).2
  | (.upsertQuota input now uuid, saved) => (inner.upsertQuota input now uuid saved).2
  | (.deleteQuota quotaId, saved) => (inner.deleteQuota quotaId saved).2
  | (.useQuotas now, _) => inner.resetQuotas now
  | (.authenticateHeaders headers now, saved) =>
    (inner.authenticateHeaders sha256 headers now saved).2
  | (.changeProviders change true, saved) =>
    (saveOrRestore saved { inner with providers := change inner.providers } inner ()).2
  | (.changeProviders change false, _) => { inner with providers := change inner.providers }

end RouteSmith.Model
