import RouteSmith.Store.ReadCommitted

/-! # The Java gateway's budget service

The budget tables of `V1__create_gateway_ledger.sql` and the transactions of `BudgetService`. Token
counts are integers: the service's `long` arithmetic is taken not to overflow.
-/

namespace RouteSmith.Model.JavaGateway

open Store Store.Txn

/-! ## Failures -/

inductive HttpStatus where
  | badRequest
  | conflict
  | payloadTooLarge
  | tooManyRequests
  | badGateway
  | serviceUnavailable
  | gatewayTimeout
  deriving DecidableEq

/-- A violation the database reports. -/
inductive Violation where
  | check
  | foreignKey
  | duplicateKey
  deriving DecidableEq

/-- What the gateway's code throws, or has thrown at it. -/
inductive Throwable where
  | gatewayException (status : HttpStatus) (message : String)
  | illegalState (message : String)
  | indexOutOfBounds
  | dataIntegrity (violation : Violation)
  -- a transaction that failed for a reason of its own, and was rolled back
  | dataAccess
  | timeout
  -- no answer from an upstream (`WebClientRequestException`)
  | webClientRequest
  | retryNextRoute
  deriving DecidableEq

/-! ## Tables -/

inductive ReservationStatus where
  | reserved
  | settled
  | released
  deriving DecidableEq

/-- The primary key of `budget_accounts`. -/
structure AccountKey where
  tenantId : String
  clientKeyId : String
  period : String
  deriving DecidableEq

inductive Key where
  | account (key : AccountKey)
  | reservation (reservationId : String)
  deriving DecidableEq

structure BudgetAccount where
  tokenLimit : ℤ
  reservedTokens : ℤ
  consumedTokens : ℤ
  updatedAt : ℤ
  deriving DecidableEq

structure ReservationRow where
  requestId : String
  account : AccountKey
  reservedTokens : ℤ
  actualTokens : Option ℤ
  status : ReservationStatus
  updatedAt : ℤ
  deriving DecidableEq

abbrev Row : Key → Type
  | .account _ => BudgetAccount
  | .reservation _ => ReservationRow

abbrev Tables := AList Row

/-- `ck_budget_nonnegative`. -/
def BudgetAccount.check (row : BudgetAccount) : Bool :=
  0 ≤ row.tokenLimit && 0 ≤ row.reservedTokens && 0 ≤ row.consumedTokens

def constraint : Constraint Row Throwable
  | _, .account _, row => if row.check then none else some (.dataIntegrity .check)
  | v, .reservation _, row =>
    if (v.lookup (.account row.account)).isSome then none else some (.dataIntegrity .foreignKey)

/-! ## The budget service -/

/-- What `reserve` is called with. -/
structure ReserveInput where
  requestId : String
  tenantId : String
  clientKeyId : String
  tokenLimit : ℤ
  requestedTokens : ℤ
  deriving DecidableEq

/-- What a call reads from the clock and the random source. -/
structure Moment where
  period : String
  now : ℤ
  uuid : String
  deriving DecidableEq

structure Reservation where
  reservationId : String
  row : ReservationRow
  deriving DecidableEq

def ReserveInput.account (input : ReserveInput) (moment : Moment) : AccountKey :=
  ⟨input.tenantId, input.clientKeyId, moment.period⟩

/-- The `UPDATE` of an account that a reservation is made on. -/
def BudgetAccount.reserve (row : BudgetAccount) (tokenLimit requested now : ℤ) : BudgetAccount :=
  { row with
    tokenLimit := tokenLimit
    reservedTokens := row.reservedTokens + requested
    updatedAt := now }

/-- The `UPDATE` of an account whose reservation is closed: its tokens are freed, and those charged
are consumed. -/
def BudgetAccount.close (row : BudgetAccount) (freed charged now : ℤ) : BudgetAccount :=
  { row with
    reservedTokens := row.reservedTokens - freed
    consumedTokens := row.consumedTokens + charged
    updatedAt := now }

/-- The `UPDATE` of the reservation itself. -/
def ReservationRow.close (row : ReservationRow) (charged now : ℤ) (status : ReservationStatus) :
    ReservationRow :=
  { row with
    actualTokens := some charged
    status := status
    updatedAt := now }

/-- `INSERT` of an account, a concurrent insert of the same one being no failure. -/
def insertAccount (key : AccountKey) (tokenLimit now : ℤ) : Txn Row Throwable Unit := do
  let _ ← insertIgnore constraint (.account key) ⟨tokenLimit, 0, 0, now⟩
  return ()

def ensureAccount (h2 : Bool) (key : AccountKey) (tokenLimit now : ℤ) : Txn Row Throwable Unit :=
  if h2 then do
    let count ← query fun v => (v.lookup (.account key)).isSome
    if count then return () else insertAccount key tokenLimit now
  else insertAccount key tokenLimit now

def lockAccount (key : AccountKey) : Txn Row Throwable BudgetAccount := do
  match ← selectForUpdate (.account key) with
  | some account => return account
  | none => raise (.illegalState "budget account was not created")

def lockReservation (reservationId : String) : Txn Row Throwable ReservationRow := do
  match ← selectForUpdate (.reservation reservationId) with
  | some row => return row
  | none => raise (.illegalState "budget reservation not found")

def reserve (h2 : Bool) (input : ReserveInput) (moment : Moment) :
    Txn Row Throwable Reservation := do
  let requested := max 1 input.requestedTokens
  let key := input.account moment
  ensureAccount h2 key input.tokenLimit moment.now
  let account ← lockAccount key
  let available := input.tokenLimit - account.reservedTokens - account.consumedTokens
  if requested > available then
    raise (.gatewayException .tooManyRequests "monthly token budget exceeded")
  else
    let _ ← update constraint (.account key) fun row =>
      .ok (some (row.reserve input.tokenLimit requested moment.now))
    let row : ReservationRow := {
      requestId := input.requestId
      account := key
      reservedTokens := requested
      actualTokens := none
      status := .reserved
      updatedAt := moment.now }
    insertNew constraint (.dataIntegrity .duplicateKey) (.reservation moment.uuid) row
    return ⟨moment.uuid, row⟩

/-- What `settle` and `release` share: a reservation that is still open is closed. -/
def close (reservationId : String) (charged now : ℤ) (status : ReservationStatus) :
    Txn Row Throwable Unit := do
  let current ← lockReservation reservationId
  if current.status ≠ .reserved then return ()
  else
    let _ ← lockAccount current.account
    let _ ← update constraint (.account current.account) fun row =>
      .ok (some (row.close current.reservedTokens charged now))
    let _ ← update constraint (.reservation reservationId) fun row =>
      .ok (some (row.close charged now status))
    return ()

def settle (reservationId : String) (actualTokens : ℤ) (now : ℤ) : Txn Row Throwable Unit :=
  close reservationId (max 0 actualTokens) now .settled

def release (reservationId : String) (now : ℤ) : Txn Row Throwable Unit :=
  close reservationId 0 now .released

/-! ## Calls -/

inductive BudgetOperation where
  | reserve (input : ReserveInput)
  | settle (reservationId : String) (actualTokens : ℤ)
  | release (reservationId : String)
  deriving DecidableEq

structure BudgetCall where
  operation : BudgetOperation
  moment : Moment
  deriving DecidableEq

/-- The reservation that a call closes, if it is one that closes reservations. -/
def BudgetCall.closes (call : BudgetCall) : Option String :=
  match call.operation with
  | .reserve _ => none
  | .settle reservationId _ => some reservationId
  | .release reservationId => some reservationId

def BudgetCall.program (h2 : Bool) (call : BudgetCall) : Txn Row Throwable (Option Reservation) :=
  match call.operation with
  | .reserve input => do return some (← JavaGateway.reserve h2 input call.moment)
  | .settle reservationId actualTokens => do
    JavaGateway.settle reservationId actualTokens call.moment.now
    return none
  | .release reservationId => do
    JavaGateway.release reservationId call.moment.now
    return none

abbrev BudgetServer := Server BudgetCall Row Throwable (Option Reservation)

end RouteSmith.Model.JavaGateway
