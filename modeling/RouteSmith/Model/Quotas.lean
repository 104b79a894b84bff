import RouteSmith.Model.Policy
import RouteSmith.Store.NameMap

/-! # Quotas and their periods

A quota counts over a period of the UTC calendar and moves on to the next one when it is over.
-/

namespace RouteSmith.Model

open Numeric Store Text

/-! ## Periods -/

def dayMs : ℕ := 24 * 60 * 60 * 1000

/-- A `u64` sum or product that saturates. -/
def saturate (n : ℕ) : ℕ := min n (2 ^ 64 - 1)

def dayStart (now : ℕ) : ℕ := now / dayMs * dayMs

/-- Year, month and day of a day counted from 1970-01-01; divisions truncate. -/
def civilFromDays (daysSinceEpoch : ℤ) : ℤ × ℤ × ℤ :=
  let z := daysSinceEpoch + 719468
  let era := (if 0 ≤ z then z else z - 146096).tdiv 146097
  let dayOfEra := z - era * 146097
  let yearOfEra :=
    (dayOfEra - dayOfEra.tdiv 1460 + dayOfEra.tdiv 36524 - dayOfEra.tdiv 146096).tdiv 365
  let year := yearOfEra + era * 400
  let dayOfYear := dayOfEra - (365 * yearOfEra + yearOfEra.tdiv 4 - yearOfEra.tdiv 100)
  let monthPrime := (5 * dayOfYear + 2).tdiv 153
  let day := dayOfYear - (153 * monthPrime + 2).tdiv 5 + 1
  let month := monthPrime + if monthPrime < 10 then 3 else -9
  (if month ≤ 2 then year + 1 else year, month, day)

def daysFromCivil (year month day : ℤ) : ℤ :=
  let year := if month ≤ 2 then year - 1 else year
  let era := (if 0 ≤ year then year else year - 399).tdiv 400
  let yearOfEra := year - era * 400
  let dayOfYear := (153 * (month + if 2 < month then -3 else 9) + 2).tdiv 5 + day - 1
  let dayOfEra := yearOfEra * 365 + yearOfEra.tdiv 4 - yearOfEra.tdiv 100 + dayOfYear
  era * 146097 + dayOfEra - 719468

def millisFromCivil (year month day : ℤ) : ℕ :=
  saturate ((daysFromCivil year month day).toNat * dayMs)

/-- Start and end of the period that an instant lies in. -/
def currentPeriod (period : String) (now : ℕ) : ℕ × ℕ :=
  match period with
  | "daily" => (dayStart now, saturate (dayStart now + dayMs))
  | "weekly" =>
    let daysSinceEpoch := now / dayMs
    let weekdayFromMonday := (daysSinceEpoch + 3) % 7
    let start := saturate ((daysSinceEpoch - weekdayFromMonday) * dayMs)
    (start, saturate (start + dayMs * 7))
  | "monthly" =>
    let (year, month, _) := civilFromDays (now / dayMs : ℕ)
    let (nextYear, nextMonth) := if month = 12 then (year + 1, 1) else (year, month + 1)
    (millisFromCivil year month 1, millisFromCivil nextYear nextMonth 1)
  | _ => (now, saturate (now + dayMs))

/-! ## Quotas -/

structure QuotaRecord where
  id : String
  userId : String
  username : String
  quotaType : String
  limit : F64
  period : String
  periodStartMs : ℕ
  periodEndMs : ℕ
  resetAtMs : ℕ
  deriving DecidableEq

structure UpsertQuotaInput where
  id : Option String := none
  userId : String
  username : String
  quotaType : String
  limit : F64
  period : String

def QuotaRecord.resetExpired (now : ℕ) (quota : QuotaRecord) : QuotaRecord :=
  if now < quota.resetAtMs then quota
  else
    let (start, finish) := currentPeriod quota.period now
    { quota with periodStartMs := start, periodEndMs := finish, resetAtMs := finish }

def resetExpiredQuotas (quotas : NameMap QuotaRecord) (now : ℕ) : NameMap QuotaRecord :=
  quotas.mapValues fun _ quota => quota.resetExpired now

def validateQuotaInput (input : UpsertQuotaInput) : Except AppError Unit := do
  refuseIf (isEmpty (trim input.userId) || isEmpty (trim input.username))
    "userId and username are required"
  -- a limit that is no number passes this comparison
  refuseIf (input.limit ≠ .nan ∧ !input.limit.geRat 0) "quota limit must be zero or greater"
  refuseIf (input.quotaType ∉ ["tokens", "requests", "cost"]) "invalid quota type"
  refuseIf (input.period ∉ ["daily", "weekly", "monthly"]) "invalid quota period"

/-- The id given, or a new one of the given kind drawn. -/
def givenOrDrawn (id : Option String) (kind uuid : String) : String :=
  (id.filter fun value => !isEmpty (trim value)).getD (kind ++ "_" ++ uuid)

def newQuota (input : UpsertQuotaInput) (now : ℕ) (uuid : String) : QuotaRecord :=
  let (start, finish) := currentPeriod input.period now
  { id := givenOrDrawn input.id "quota" uuid
    userId := input.userId
    username := input.username
    quotaType := input.quotaType
    limit := input.limit
    period := input.period
    periodStartMs := start
    periodEndMs := finish
    resetAtMs := finish }

end RouteSmith.Model
