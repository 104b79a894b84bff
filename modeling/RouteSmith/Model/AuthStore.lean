import RouteSmith.Model.Quotas
import Mathlib.Data.List.MinMax
import Mathlib.Logic.Function.Basic

/-! # The auth store: users, sessions and login attempts

The state is changed under a lock, and a change of the users is written to a store that may refuse;
the state is then put back as it was. A password is checked between two holds of the lock. The
clock, the tokens, identifiers and password hashes drawn and the store's answers are inputs of each
operation.
-/

namespace RouteSmith.Model

open Store Text

structure FederatedIdentity where
  issuer : String
  subject : String
  deriving DecidableEq

structure AdminUserRecord where
  id : String
  username : String
  email : String
  role : String
  status : String
  passwordHash : String
  createdAtMs : ℕ
  updatedAtMs : ℕ
  lastLoginAtMs : Option ℕ := none
  federatedIdentities : List FederatedIdentity := []
  deriving DecidableEq

structure AdminSession where
  userId : String
  expiresAtMs : ℕ
  deriving DecidableEq

structure LoginAttempt where
  failedCount : ℕ := 0
  lockedUntilMs : ℕ := 0
  lastAttemptMs : ℕ := 0
  deriving DecidableEq

structure AuthInner where
  users : NameMap AdminUserRecord := ∅
  sessions : NameMap AdminSession := ∅
  attempts : NameMap LoginAttempt := ∅

/-- `verify_password`, `hash_session_token` and the lifetime of sessions. -/
structure AuthEnv where
  verifyPassword : (password passwordHash : String) → Bool
  hashSessionToken : String → String
  sessionTtlSeconds : ℕ

structure LoginResult where
  sessionToken : String
  expiresAtMs : ℕ
  user : AdminUserRecord

/-! ## Checks -/

def maxFailedAttempts : ℕ := 5

def lockoutMs : ℕ := 15 * 60 * 1000

def maxPasswordBytes : ℕ := 1024

def loginAttemptRetentionMs : ℕ := 24 * 60 * 60 * 1000

def maxLoginAttemptRecords : ℕ := 10000

def normalizeUsername (value : String) : Except AppError String := do
  let username := trim value
  refuseIf (len username < 3 ∨ 64 < len username) "username must be 3-64 characters"
  refuseIf (!username.toList.all fun c => c.isAlphanum || c = '_' || c = '-' || c = '.')
    "username may only contain letters, numbers, dots, underscores, and hyphens"
  return username

def validateEmail (value : String) : Except AppError String := do
  let email := trim value
  refuseIf (254 < len email ∨ '@' ∉ email.toList) "invalid email address"
  return email

def validateFederatedIdentifier (field value : String) (maxBytes : ℕ) : Except AppError String := do
  let value := trim value
  refuseIf (!boundedText maxBytes value) ("invalid federated " ++ field)
  return value

def validateRole (value : String) : Except AppError String := do
  refuseIf (value ∉ ["admin", "user", "viewer"]) "invalid user role"
  return value

def validateStatus (value : String) : Except AppError String := do
  refuseIf (value ∉ ["active", "disabled", "suspended"]) "invalid user status"
  return value

def validatePasswordStrength (password : String) : Except AppError Unit := do
  refuseIf (maxPasswordBytes < len password)
    ("password must be at most " ++ toString maxPasswordBytes ++ " bytes")
  refuseIf (password.toList.length < 12) "password must be at least 12 characters"
  let normalized := toAsciiLowercase (trim password)
  let hasCommonStart :=
    ["admin", "password", "modelport", "letmein", "qwerty", "example-password"].any
      (startsWith normalized)
  let isPlaceholder :=
    ["administrator", "password123", "password1234", "modelport123", "modelport-admin",
      "letmein12345", "change-me-now"].contains normalized ||
    startsWith normalized "replace-with-" || startsWith normalized "your-password" ||
    contains normalized "placeholder" || contains normalized "change-me" ||
    contains normalized "changeme"
  let onlyDigits := normalized.toList.all Char.isDigit
  refuseIf (isEmpty normalized || hasCommonStart || isPlaceholder || onlyDigits ||
      password.toList.dedup.length < 6)
    "password is a common placeholder or is too weak"

/-! ## Login attempts -/

def recordFailedAttempt (attempt : LoginAttempt) (nowMs : ℕ) : LoginAttempt :=
  let attempt := { attempt with lastAttemptMs := nowMs, failedCount := attempt.failedCount + 1 }
  if maxFailedAttempts ≤ attempt.failedCount then
    { attempt with lockedUntilMs := saturate (nowMs + lockoutMs), failedCount := 0 }
  else attempt

/-- The name whose last attempt is the oldest; the source's hash map leaves open which of
several. -/
def oldestAttempt (attempts : NameMap LoginAttempt) : Option String :=
  (attempts.entries.argmin fun e => e.2.lastAttemptMs).map Sigma.fst

def recordFailedLogin (attempts : NameMap LoginAttempt) (username : String) (nowMs : ℕ) :
    NameMap LoginAttempt :=
  let attempts :=
    if attempts.lookup username = none ∧ maxLoginAttemptRecords ≤ attempts.entries.length then
      (oldestAttempt attempts).elim attempts fun oldest => attempts.erase oldest
    else attempts
  attempts.insert username (recordFailedAttempt ((attempts.lookup username).getD {}) nowMs)

def pruneLoginAttempts (attempts : NameMap LoginAttempt) (nowMs : ℕ) : NameMap LoginAttempt :=
  attempts.retain fun _ attempt =>
    nowMs < attempt.lockedUntilMs ||
      nowMs < saturate (attempt.lastAttemptMs + loginAttemptRetentionMs)

namespace AuthInner

def isLocked (inner : AuthInner) (username : String) (nowMs : ℕ) : Bool :=
  (inner.attempts.lookup username).any fun attempt => nowMs < attempt.lockedUntilMs

def pruneExpiredSessions (inner : AuthInner) (nowMs : ℕ) : AuthInner :=
  { inner with sessions := inner.sessions.retain fun _ session => nowMs < session.expiresAtMs }

/-- `save_or_restore_locked`, with the answer of the store. -/
def saveOrRestore {α : Type} (saved : Except AppError Unit) (inner previous : AuthInner)
    (result : α) : Except AppError α × AuthInner :=
  match saved with
  | .ok _ => (.ok result, inner)
  | .error error => (.error error, previous)

def failLogin (inner : AuthInner) (username : String) (nowMs : ℕ) :
    Except AppError LoginResult × AuthInner :=
  (.error .auth,
    { inner with attempts := recordFailedLogin inner.attempts username nowMs })

end AuthInner

/-! ## Password logins -/

structure LoginInput where
  username : String
  password : String

/-- A login between its two holds of the lock: `candidate` is a copy of the user that was found. -/
structure LoginCall where
  username : String
  password : String
  nowMs : ℕ
  candidate : Option (String × AdminUserRecord)

namespace AuthInner

variable (env : AuthEnv)

/-- The first hold of the lock in `login`. -/
def beginLogin (inner : AuthInner) (input : LoginInput) (nowMs : ℕ) :
    Except AppError LoginCall × AuthInner :=
  match normalizeUsername input.username with
  | .error error => (.error error, inner)
  | .ok username =>
    if isEmpty input.password || maxPasswordBytes < len input.password then (.error .auth, inner)
    else
      let inner := inner.pruneExpiredSessions nowMs
      let inner := { inner with attempts := pruneLoginAttempts inner.attempts nowMs }
      if inner.isLocked username nowMs then (.error .auth, inner)
      else
        let candidate := inner.users.ordered.find? fun entry =>
          eqIgnoreAsciiCase entry.2.username username
        (.ok { username, password := input.password, nowMs, candidate }, inner)

/-- The session that a login issues. -/
def issueSession (inner : AuthInner) (userId token : String) (nowMs : ℕ) : AuthInner :=
  let session : AdminSession := {
    userId, expiresAtMs := saturate (nowMs + saturate (env.sessionTtlSeconds * 1000)) }
  { inner with sessions := inner.sessions.insert (env.hashSessionToken token) session }

def noteLogin (inner : AuthInner) (user : AdminUserRecord) (userId : String) (nowMs : ℕ) :
    AuthInner :=
  let user := { user with lastLoginAtMs := some nowMs, updatedAtMs := nowMs }
  { inner with users := inner.users.insert userId user }

def loginResult (user : AdminUserRecord) (token : String) (nowMs : ℕ) : LoginResult where
  sessionToken := token
  expiresAtMs := saturate (nowMs + saturate (env.sessionTtlSeconds * 1000))
  user := { user with lastLoginAtMs := some nowMs, updatedAtMs := nowMs }

/-- The second hold of the lock in `login`, after the password was checked against the copy. -/
def finishLogin (inner : AuthInner) (call : LoginCall) (token : String)
    (saved : Except AppError Unit) : Except AppError LoginResult × AuthInner :=
  let inner := inner.pruneExpiredSessions call.nowMs
  match call.candidate with
  | none => inner.failLogin call.username call.nowMs
  | some (userId, candidate) =>
    let verified := candidate.status = "active" ∧
      env.verifyPassword call.password candidate.passwordHash = true
    match inner.users.lookup userId with
    | none => inner.failLogin call.username call.nowMs
    | some user =>
      let candidateIsCurrent := user.status = "active" ∧
        eqIgnoreAsciiCase user.username call.username = true ∧
        user.passwordHash = candidate.passwordHash
      if ¬verified ∨ ¬candidateIsCurrent then inner.failLogin call.username call.nowMs
      else if inner.isLocked call.username call.nowMs then (.error .auth, inner)
      else
        let inner := { inner with attempts := inner.attempts.erase call.username }
        saveOrRestore saved
          ((inner.noteLogin user userId call.nowMs).issueSession env userId token call.nowMs)
          inner (loginResult env user token call.nowMs)

/-- A login with nothing in between. -/
def login (inner : AuthInner) (input : LoginInput) (nowMs : ℕ) (token : String)
    (saved : Except AppError Unit) : Except AppError LoginResult × AuthInner :=
  match inner.beginLogin input nowMs with
  | (.error error, inner) => (.error error, inner)
  | (.ok call, inner) => inner.finishLogin env call token saved

end AuthInner

/-! ## Federated logins -/

structure FederatedLoginInput where
  issuer : String
  subject : String
  username : Option String := none
  email : Option String := none
  emailVerified : Bool
  autoProvision : Bool

/-- A federated login that is about to create its user. -/
structure FederatedCall where
  identity : FederatedIdentity
  username : String
  email : String
  nowMs : ℕ

namespace AuthInner

/-- The user that an identity is bound to. -/
def boundUserId (inner : AuthInner) (identity : FederatedIdentity) :
    Except AppError (Option String) :=
  match inner.users.ordered.filter fun entry =>
      entry.2.federatedIdentities.contains identity with
  | [] => .ok none
  | [(id, _)] => .ok (some id)
  | _ => .error (.config "duplicate federated identity binding in auth store")

variable (env : AuthEnv)

def finishFederatedLogin (inner previous : AuthInner) (userId : String) (nowMs : ℕ)
    (token : String) (saved : Except AppError Unit) : Except AppError LoginResult × AuthInner :=
  match inner.users.lookup userId with
  | none => (.error (.config "OIDC user disappeared"), inner)
  | some user =>
    if user.status ≠ "active" then (.error .auth, inner)
    else
      saveOrRestore saved ((inner.noteLogin user userId nowMs).issueSession env userId token nowMs)
        previous (loginResult env user token nowMs)

/-- A verified email address, or a failed login. -/
def verifiedEmail (input : FederatedLoginInput) : Except AppError String :=
  if !input.emailVerified then .error .auth
  else
    match input.email with
    | none => .error .auth
    | some email => (validateEmail email).mapError fun _ => .auth

def takenBy (inner : AuthInner) (username email : String) : Bool :=
  inner.users.values.any fun user =>
    eqIgnoreAsciiCase user.username username || eqIgnoreAsciiCase user.email email

def readIdentity (input : FederatedLoginInput) : Except AppError FederatedIdentity := do
  let issuer ← validateFederatedIdentifier "issuer" input.issuer 2048
  let subject ← validateFederatedIdentifier "subject" input.subject 512
  return { issuer, subject }

/-- A login with a new identity that is bound to the one user with its email address. -/
def bindByEmail (inner : AuthInner) (identity : FederatedIdentity) (userId : String)
    (user : AdminUserRecord) (nowMs : ℕ) (token : String) (saved : Except AppError Unit) :
    Except AppError LoginResult × AuthInner :=
  if user.role = "admin" ∨ user.status ≠ "active" ∨ user.federatedIdentities ≠ [] then
    (.error .auth, inner)
  else
    let user := { user with federatedIdentities := user.federatedIdentities ++ [identity] }
    let bound := { inner with users := inner.users.insert userId user }
    bound.finishFederatedLogin env inner userId nowMs token saved

/-- A login with a new identity and a new email address: what a new user is created with. -/
def readProvision (inner : AuthInner) (input : FederatedLoginInput) (identity : FederatedIdentity)
    (email : String) (nowMs : ℕ) : Except AppError FederatedCall :=
  if !input.autoProvision then .error .auth
  else
    match input.username.map normalizeUsername with
    | some (.ok username) =>
      if inner.takenBy username email then .error .auth
      else .ok { identity, username, email, nowMs }
    | _ => .error .auth

/-- The first hold of the lock in `login_federated`: a login that is over, or one that goes on to
create its user. -/
def beginFederated (inner : AuthInner) (input : FederatedLoginInput) (nowMs : ℕ) (token : String)
    (saved : Except AppError Unit) : (Except AppError LoginResult ⊕ FederatedCall) × AuthInner :=
  match readIdentity input with
  | .error error => (.inl (.error error), inner)
  | .ok identity =>
    let inner := inner.pruneExpiredSessions nowMs
    match inner.boundUserId identity with
    | .error error => (.inl (.error error), inner)
    | .ok (some userId) =>
      let (result, inner) := inner.finishFederatedLogin env inner userId nowMs token saved
      (.inl result, inner)
    | .ok none =>
      match verifiedEmail input with
      | .error error => (.inl (.error error), inner)
      | .ok email =>
        match inner.users.ordered.filter fun entry => eqIgnoreAsciiCase entry.2.email email with
        | _ :: _ :: _ => (.inl (.error .auth), inner)
        | [(userId, user)] =>
          let (result, inner) := inner.bindByEmail env identity userId user nowMs token saved
          (.inl result, inner)
        | [] =>
          match inner.readProvision input identity email nowMs with
          | .error error => (.inl (.error error), inner)
          | .ok call => (.inr call, inner)

/-- The user that a federated login creates, with the hash of a password that nobody knows. -/
def provisionedUser (call : FederatedCall) (passwordHash uuid : String) : AdminUserRecord where
  id := "usr_" ++ uuid
  username := call.username
  email := call.email
  role := "user"
  status := "active"
  passwordHash := passwordHash
  createdAtMs := call.nowMs
  updatedAtMs := call.nowMs
  federatedIdentities := [call.identity]

/-- The second hold of the lock in `login_federated`, if a password could be hashed. -/
def finishFederated (inner : AuthInner) (call : FederatedCall) (passwordHash uuid token : String)
    (saved : Except AppError Unit) : Except AppError LoginResult × AuthInner :=
  let inner := inner.pruneExpiredSessions call.nowMs
  match inner.boundUserId call.identity with
  | .error error => (.error error, inner)
  | .ok (some userId) => inner.finishFederatedLogin env inner userId call.nowMs token saved
  | .ok none =>
    if inner.takenBy call.username call.email then (.error .auth, inner)
    else
      let user := provisionedUser call passwordHash uuid
      let provisioned := { inner with users := inner.users.insert user.id user }
      provisioned.finishFederatedLogin env inner user.id call.nowMs token saved

end AuthInner

/-! ## Sessions -/

/-- The session token of a request; `headers` gives the first value of a header if it is text. -/
def sessionTokenFromHeaders (headers : String → Option String) : Option String :=
  ((headers "x-admin-session").filter fun value => !isEmpty value).or
    ((headers "cookie").bind fun cookies =>
      (cookies.toList.splitOn ';').findSome? fun cookie =>
        match splitOnce '=' (trim (String.ofList cookie)) with
        | none => none
        | some (name, value) =>
          if name = "modelport_admin_session" ∧ !isEmpty value then some value else none)

namespace AuthInner

variable (env : AuthEnv)

def requireSession (inner : AuthInner) (headers : String → Option String) (nowMs : ℕ) :
    Except AppError AdminUserRecord × AuthInner :=
  match sessionTokenFromHeaders headers with
  | none => (.error .auth, inner)
  | some token =>
    let inner := inner.pruneExpiredSessions nowMs
    let tokenHash := env.hashSessionToken token
    match inner.sessions.lookup tokenHash with
    | none => (.error .auth, inner)
    | some session =>
      if session.expiresAtMs ≤ nowMs then
        (.error .auth, { inner with sessions := inner.sessions.erase tokenHash })
      else
        match inner.users.lookup session.userId with
        | none => (.error .auth, inner)
        | some user => if user.status ≠ "active" then (.error .auth, inner) else (.ok user, inner)

def logout (inner : AuthInner) (headers : String → Option String) : AuthInner :=
  match sessionTokenFromHeaders headers with
  | none => inner
  | some token => { inner with sessions := inner.sessions.erase (env.hashSessionToken token) }

end AuthInner

/-! ## Users -/

structure CreateUserInput where
  username : String
  email : String
  password : String
  role : Option String := none
  status : Option String := none

structure UpdateUserInput where
  email : Option String := none
  password : Option String := none
  role : Option String := none
  status : Option String := none

/-- The user that a request describes, with the hash drawn for its password. -/
def readUser (input : CreateUserInput) (hashed : Except AppError String) (nowMs : ℕ)
    (uuid : String) : Except AppError AdminUserRecord := do
  let username ← normalizeUsername input.username
  let email ← validateEmail input.email
  let role ← validateRole (input.role.getD "user")
  let status ← validateStatus (input.status.getD "active")
  validatePasswordStrength input.password
  let passwordHash ← hashed
  return {
    id := "usr_" ++ uuid, username, email, role, status, passwordHash
    createdAtMs := nowMs, updatedAtMs := nowMs }

/-- What an update changes. -/
structure UserChange where
  email : Option String
  role : Option String
  status : Option String
  passwordHash : Option String

/-- A field of an update that is checked if it is there. -/
def checkGiven {α : Type} (given : Option α) (read : α → Except AppError String) :
    Except AppError (Option String) :=
  match given with
  | none => pure none
  | some value => some <$> read value

def readUserChange (input : UpdateUserInput) (hashed : Except AppError String) :
    Except AppError UserChange := do
  let email ← checkGiven input.email validateEmail
  let role ← checkGiven input.role validateRole
  let status ← checkGiven input.status validateStatus
  let passwordHash ← checkGiven (input.password.filter fun password => !isEmpty password)
    fun password => do
      validatePasswordStrength password
      hashed
  return { email, role, status, passwordHash }

def isActiveAdmin (user : AdminUserRecord) : Bool := user.role = "admin" && user.status = "active"

def UserChange.apply (change : UserChange) (user : AdminUserRecord) (nowMs : ℕ) :
    AdminUserRecord :=
  { user with
    email := change.email.getD user.email
    role := change.role.getD user.role
    status := change.status.getD user.status
    passwordHash := change.passwordHash.getD user.passwordHash
    updatedAtMs := nowMs }

namespace AuthInner

def createUser (inner : AuthInner) (input : CreateUserInput) (hashed : Except AppError String)
    (nowMs : ℕ) (uuid : String) (saved : Except AppError Unit) :
    Except AppError AdminUserRecord × AuthInner :=
  match readUser input hashed nowMs uuid with
  | .error error => (.error error, inner)
  | .ok user =>
    if inner.users.values.any fun existing => eqIgnoreAsciiCase existing.username user.username then
      (.error (.invalidRequest "username already exists"), inner)
    else saveOrRestore saved { inner with users := inner.users.insert user.id user } inner user

def clearSessions (inner : AuthInner) (userId : String) : AuthInner :=
  { inner with sessions := inner.sessions.retain fun _ session => session.userId != userId }

def updateUser (inner : AuthInner) (userId currentUserId : String) (input : UpdateUserInput)
    (hashed : Except AppError String) (nowMs : ℕ) (saved : Except AppError Unit) :
    Except AppError AdminUserRecord × AuthInner :=
  match readUserChange input hashed with
  | .error error => (.error error, inner)
  | .ok change =>
    match inner.users.lookup userId with
    | none => (.error (.invalidRequest "user not found"), inner)
    | some existing =>
      if userId = currentUserId ∧
          (change.role.any (· != "admin") || change.status.any (· != "active")) then
        (.error (.forbidden "cannot remove admin access from the current signed-in user"), inner)
      else
        let user := change.apply existing nowMs
        let activeAdminsAfter := inner.users.entries.countP fun entry =>
          if entry.1 = userId then isActiveAdmin user else isActiveAdmin entry.2
        if activeAdminsAfter = 0 then
          (.error (.forbidden "cannot remove the last active admin"), inner)
        else
          let updated := { inner with users := inner.users.insert userId user }
          saveOrRestore saved
            (if change.passwordHash.isSome || user.status != "active" then
              updated.clearSessions userId
            else updated)
            inner user

def deleteUser (inner : AuthInner) (userId currentUserId : String)
    (saved : Except AppError Unit) : Except AppError Unit × AuthInner :=
  if userId = currentUserId then
    (.error (.forbidden "cannot delete the current signed-in user"), inner)
  else
    match inner.users.lookup userId with
    | none => (.ok (), inner)
    | some user =>
      if user.role = "admin" ∧ inner.users.values.countP isActiveAdmin ≤ 1 then
        (.error (.forbidden "cannot delete the last active admin"), inner)
      else
        saveOrRestore saved ({ inner with users := inner.users.erase userId }.clearSessions userId)
          inner ()

end AuthInner

/-! ## Interleavings -/

/-- The store, with the logins that are between their holds of the lock. -/
structure AuthSystem where
  inner : AuthInner
  logins : ℕ → Option LoginCall := fun _ => none
  provisions : ℕ → Option FederatedCall := fun _ => none

/-- The parts of the operations that hold the lock; calls are told apart by numbers. -/
inductive AuthAction where
  | beginLogin (call : ℕ) (input : LoginInput) (nowMs : ℕ)
  | finishLogin (call : ℕ) (token : String)
  | beginFederated (call : ℕ) (input : FederatedLoginInput) (nowMs : ℕ) (token : String)
  | finishFederated (call : ℕ) (hashed : Except AppError String) (uuid token : String)
  | createUser (input : CreateUserInput) (hashed : Except AppError String) (nowMs : ℕ)
    (uuid : String)
  | updateUser (userId currentUserId : String) (input : UpdateUserInput)
    (hashed : Except AppError String) (nowMs : ℕ)
  | deleteUser (userId currentUserId : String)
  | logout (headers : String → Option String)
  | requireSession (headers : String → Option String) (nowMs : ℕ)

namespace AuthSystem

variable (env : AuthEnv)

/-- One hold of the lock, with the answer of the store in case it saves. The login that ends with
it, if one does, ends with the result given. -/
def stepResult (s : AuthSystem) :
    AuthAction × Except AppError Unit → Option (Except AppError LoginResult) × AuthSystem
  | (.beginLogin call input nowMs, _) =>
    match s.inner.beginLogin input nowMs with
    | (.error error, inner) => (some (.error error), { s with inner })
    | (.ok begun, inner) =>
      (none, { s with inner, logins := Function.update s.logins call (some begun) })
  | (.finishLogin call token, saved) =>
    match s.logins call with
    | none => (none, s)
    | some begun =>
      let (result, inner) := s.inner.finishLogin env begun token saved
      (some result, { s with inner, logins := Function.update s.logins call none })
  | (.beginFederated call input nowMs token, saved) =>
    match s.inner.beginFederated env input nowMs token saved with
    | (.inl result, inner) => (some result, { s with inner })
    | (.inr begun, inner) =>
      (none, { s with inner, provisions := Function.update s.provisions call (some begun) })
  | (.finishFederated call hashed uuid token, saved) =>
    match s.provisions call, hashed with
    | none, _ => (none, s)
    | some _, .error error =>
      (some (.error error), { s with provisions := Function.update s.provisions call none })
    | some begun, .ok passwordHash =>
      let (result, inner) := s.inner.finishFederated env begun passwordHash uuid token saved
      (some result, { s with inner, provisions := Function.update s.provisions call none })
  | (.createUser input hashed nowMs uuid, saved) =>
    (none, { s with inner := (s.inner.createUser input hashed nowMs uuid saved).2 })
  | (.updateUser userId currentUserId input hashed nowMs, saved) =>
    (none, { s with
      inner := (s.inner.updateUser userId currentUserId input hashed nowMs saved).2 })
  | (.deleteUser userId currentUserId, saved) =>
    (none, { s with inner := (s.inner.deleteUser userId currentUserId saved).2 })
  | (.logout headers, _) => (none, { s with inner := s.inner.logout env headers })
  | (.requireSession headers nowMs, _) =>
    (none, { s with inner := (s.inner.requireSession env headers nowMs).2 })

def step (s : AuthSystem) (a : AuthAction × Except AppError Unit) : AuthSystem :=
  (s.stepResult env a).2

end AuthSystem

/-! ## Documents -/

/-- The stored document. -/
structure AuthFile where
  users : List AdminUserRecord

def AuthInner.load (file : AuthFile) : AuthInner :=
  { users := NameMap.collect (fun user => (user.id, user)) file.users }

/-- The store after a start. -/
def AuthSystem.start (file : AuthFile) : AuthSystem := { inner := AuthInner.load file }

/-- What the check of a backup has seen. -/
structure BackupSeen where
  ids : List String := []
  usernames : List String := []
  federatedIdentities : List FederatedIdentity := []
  activeAdmins : ℕ := 0

def checkIdentity (seen : BackupSeen) (identity : FederatedIdentity) :
    Except AppError BackupSeen := do
  let issuer ← validateFederatedIdentifier "issuer" identity.issuer 2048
  let subject ← validateFederatedIdentifier "subject" identity.subject 512
  refuseIf (⟨issuer, subject⟩ ∈ seen.federatedIdentities)
    "backup auth document contains a duplicate federated identity"
  return { seen with federatedIdentities := ⟨issuer, subject⟩ :: seen.federatedIdentities }

/-- One user of `validate_backup_document`; `algorithm` reads the algorithm off a password hash. -/
def checkBackupUser (algorithm : String → Option String) (seen : BackupSeen)
    (user : AdminUserRecord) : Except AppError BackupSeen := do
  refuseIf (isEmpty (trim user.id) ∨ user.id ∈ seen.ids)
    "backup auth document contains an empty or duplicate user id"
  let username ← normalizeUsername user.username
  refuseIf (toAsciiLowercase username ∈ seen.usernames)
    "backup auth document contains duplicate usernames"
  let _ ← validateEmail user.email
  let _ ← validateRole user.role
  let _ ← validateStatus user.status
  refuseIf (algorithm user.passwordHash = none)
    "backup auth document contains an invalid password hash"
  refuseIf ((algorithm user.passwordHash).all (· ∉ ["argon2id", "argon2i", "argon2d"]))
    "backup auth document contains an unsupported password hash"
  let seen ← user.federatedIdentities.foldlM checkIdentity { seen with
    ids := user.id :: seen.ids, usernames := toAsciiLowercase username :: seen.usernames }
  return { seen with activeAdmins := seen.activeAdmins + if isActiveAdmin user then 1 else 0 }

def validateBackupDocument (algorithm : String → Option String) (file : AuthFile) :
    Except AppError Unit := do
  let seen ← file.users.foldlM (checkBackupUser algorithm) {}
  refuseIf (file.users ≠ [] ∧ seen.activeAdmins = 0)
    "backup auth document must retain at least one active admin"

end RouteSmith.Model
