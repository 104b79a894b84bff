import RouteSmith.Control.Runs
import RouteSmith.Model.Error
import RouteSmith.Store.Register
import RouteSmith.Store.Txn

/-! # The JSON state store

One state namespace over its two backends: a document in memory behind a lock, and a row of
`modelport_state`. Writers read the state and then compare and swap, any number of them at once.
-/

namespace RouteSmith.Model

open Store

abbrev VersionedValue := Versioned Json

def stateConflict (stateName : String) (expectedRevision : ℕ) : AppError :=
  .stateConflict (stateName ++ " state changed after revision " ++ toString expectedRevision ++
    "; reload the latest state before retrying")

/-- What a writer passes to `compare_and_swap_value`, given what it has read. -/
abbrev WritePlan := ℕ → VersionedValue → ℕ × Json

/-! ## In memory -/

/-- `compare_and_swap_value` of the memory backend, which holds the lock throughout. -/
def compareAndSwapMemory (stateName : String) (document : VersionedValue) (expectedRevision : ℕ)
    (value : Json) : Except AppError ℕ × VersionedValue :=
  if document.revision ≠ expectedRevision then
    (.error (stateConflict stateName expectedRevision), document)
  else
    let document := { document with value := some value }
    -- `checked_add` on the `u64` comes after the assignment
    if document.revision < 2 ^ 64 - 1 then
      (.ok (document.revision + 1), { document with revision := document.revision + 1 })
    else (.error (.database "state revision exhausted"), document)

/-- The store with its writers, and the writes that have succeeded, the latest first. -/
structure MemoryStore where
  document : VersionedValue
  writers : ℕ → Register.Writer Json AppError := fun _ => .idle
  history : List (Write Json) := []

inductive MemoryAction where
  | read (n : ℕ)
  | swap (n : ℕ)

namespace MemoryStore

variable (stateName : String) (plan : WritePlan) (s : MemoryStore)

def setWriter (n : ℕ) (writer : Register.Writer Json AppError) : MemoryStore :=
  { s with writers := Function.update s.writers n writer }

def swap (n : ℕ) (seen : VersionedValue) : MemoryStore :=
  let (expected, value) := plan n seen
  match compareAndSwapMemory stateName s.document expected value with
  | (.ok revision, document) =>
    { s with document, history := ⟨n, expected, value⟩ :: s.history }.setWriter n
      (.done seen (.ok revision))
  | (.error error, document) => { s with document }.setWriter n (.done seen (.error error))

def step (action : MemoryAction) : MemoryStore :=
  match action with
  | .read n =>
    match s.writers n with
    | .idle => s.setWriter n (.loaded s.document)
    | _ => s
  | .swap n =>
    match s.writers n with
    | .loaded seen => s.swap stateName plan n seen
    | _ => s

end MemoryStore

/-! ## In PostgreSQL -/

mutual

/-- A `JSONB` column takes the document: there is no NUL in its texts. -/
def isJsonb : Json → Bool
  | .string s => !Text.hasNul s
  | .array items => areJsonb items
  | .object members => membersAreJsonb members
  | _ => true

def areJsonb : List Json → Bool
  | [] => true
  | item :: items => isJsonb item && areJsonb items

def membersAreJsonb : List (String × Json) → Bool
  | [] => true
  | (key, value) :: members => !Text.hasNul key && isJsonb value && membersAreJsonb members

end

/-- A row of `modelport_state`; the revision is a `BIGINT` that a constraint keeps from being
negative. -/
structure StateRow where
  document : Json
  revision : ℕ
  revision_lt : revision < 2 ^ 63

/-- `read_postgres_value`. -/
def readPostgresValue : Option StateRow → VersionedValue
  | none => { value := none, revision := 0 }
  | some row => { value := some row.document, revision := row.revision }

/-- The statement of `compare_and_swap_postgres_value`, by the row as it was when the statement
began and as it is when its turn on the row has come: the row that it writes, if any. It is not
carried out at all with a document that is no `JSONB`.

The `UPDATE` finds its row by the former and checks its condition again on the latter. The `INSERT`
looks for a row in the former, and the primary key for one in the latter. -/
def compareAndSwapStatement (snapshot current : Option StateRow) (expectedRevision : ℕ)
    (value : Json) : Except AppError (Option StateRow) :=
  if !isJsonb value then .error (.sqlx .untranslatableCharacter)
  else
    match snapshot with
    | some found =>
      if found.revision = expectedRevision then
        match current with
        | none => .ok none
        | some row =>
          if row.revision = expectedRevision then
            if h : row.revision + 1 < 2 ^ 63 then .ok (some ⟨value, row.revision + 1, h⟩)
            else .error (.sqlx .numericValueOutOfRange)
          else .ok none
      else .ok none
    | none =>
      if expectedRevision = 0 then
        match current with
        | none => .ok (some ⟨value, 1, by decide⟩)
        | some _ => .ok none
      else .ok none

/-- Where a writer stands. -/
inductive PostgresWriter where
  | idle
  | loaded (seen : VersionedValue)
  /-- The statement has begun. -/
  | querying (seen : VersionedValue) (snapshot : Option StateRow)
  /-- The statement has written the row, and the transaction holds the lock on it. -/
  | written (seen : VersionedValue) (row : StateRow)
  | done (seen : VersionedValue) (result : Except AppError ℕ)

inductive PostgresAction where
  | read (n : ℕ)
  | query (n : ℕ)
  | execute (n : ℕ)
  | commit (n : ℕ)
  /-- The statement, its transaction or the connection fails before the commit. -/
  | fail (n : ℕ) (error : AppError)

/-- The committed row with the writers, which of them holds the lock on it, and the writes that have
succeeded, the latest first. -/
structure PostgresStore where
  row : Option StateRow := none
  writers : ℕ → PostgresWriter := fun _ => .idle
  lock : Option ℕ := none
  history : List (Write Json) := []

namespace PostgresStore

variable (stateName : String) (plan : WritePlan) (s : PostgresStore)

def setWriter (n : ℕ) (writer : PostgresWriter) : PostgresStore :=
  { s with writers := Function.update s.writers n writer }

/-- The revision is converted to a `BIGINT` before the statement begins. -/
def query (n : ℕ) (seen : VersionedValue) : PostgresStore :=
  if (plan n seen).1 < 2 ^ 63 then s.setWriter n (.querying seen s.row)
  else s.setWriter n
    (.done seen (.error (.database "state revision exceeds PostgreSQL BIGINT")))

/-- A statement that writes waits for the lock; one that returns no row is a conflict. -/
def execute (n : ℕ) (seen : VersionedValue) (snapshot : Option StateRow) : PostgresStore :=
  match compareAndSwapStatement snapshot s.row (plan n seen).1 (plan n seen).2 with
  | .error error => s.setWriter n (.done seen (.error error))
  | .ok none => s.setWriter n (.done seen (.error (stateConflict stateName (plan n seen).1)))
  | .ok (some row) =>
    if s.lock = none then { s with lock := some n }.setWriter n (.written seen row) else s

def commit (n : ℕ) (seen : VersionedValue) (row : StateRow) : PostgresStore :=
  { s with
    row := some row
    lock := none
    history := ⟨n, (plan n seen).1, (plan n seen).2⟩ :: s.history }.setWriter n
      (.done seen (.ok row.revision))

def fail (n : ℕ) (error : AppError) : PostgresStore :=
  match s.writers n with
  | .loaded seen | .querying seen _ => s.setWriter n (.done seen (.error error))
  | .written seen _ => { s with lock := none }.setWriter n (.done seen (.error error))
  | _ => s

def step (action : PostgresAction) : PostgresStore :=
  match action with
  | .read n =>
    match s.writers n with
    | .idle => s.setWriter n (.loaded (readPostgresValue s.row))
    | _ => s
  | .query n =>
    match s.writers n with
    | .loaded seen => s.query plan n seen
    | _ => s
  | .execute n =>
    match s.writers n with
    | .querying seen snapshot => s.execute stateName plan n seen snapshot
    | _ => s
  | .commit n =>
    match s.writers n with
    | .written seen row => s.commit plan n seen row
    | _ => s
  | .fail n error => s.fail n error

end PostgresStore

/-! ## Two namespaces at once -/

/-- The rows of `modelport_state`, by namespace. -/
abbrev StateRows := AList fun _ : String => StateRow

abbrev StateTxn := Txn (fun _ : String => StateRow) AppError

structure StateWrite where
  stateName : String
  expectedRevision : ℕ
  value : Json

/-- `compare_and_swap_postgres_value` inside a transaction. A statement that has to wait found the
revision it expects, and looks again at its turn; any other returns with what it found. So one
look at the row stands for both. -/
def compareAndSwapPostgresValue (write : StateWrite) : StateTxn ℕ :=
  if write.expectedRevision < 2 ^ 63 then
    .statement fun rows =>
      let row := rows.lookup write.stateName
      match compareAndSwapStatement row row write.expectedRevision write.value with
      | .error error => .error error
      | .ok none => .error (stateConflict write.stateName write.expectedRevision)
      | .ok (some row) => .ok (AList.singleton write.stateName row, row.revision)
  else .raise (.database "state revision exceeds PostgreSQL BIGINT")

def compareAndSwapPostgresValues : List StateWrite → StateTxn (List ℕ)
  | [] => pure []
  | write :: writes => do
    let revision ← compareAndSwapPostgresValue write
    let revisions ← compareAndSwapPostgresValues writes
    return revision :: revisions

inductive JsonStore where
  | file
  | memory
  | postgres (databaseUrl stateName : String)

/-- What a caller of `compare_and_swap_pair` passes for one of the two stores. -/
structure StoreSwap where
  store : JsonStore
  expectedRevision : ℕ
  value : Json

def compareAndSwapPair (first second : StoreSwap) : StateTxn (ℕ × ℕ) :=
  match first.store, second.store with
  | .postgres firstUrl firstName, .postgres secondUrl secondName =>
    if firstUrl ≠ secondUrl then .raise (.config
      "atomic state restore requires auth and control to use the same PostgreSQL database")
    else if firstName = secondName then
      .raise (.invalidRequest "atomic state restore requires distinct namespaces")
    else do
      let revisions ← compareAndSwapPostgresValues [
        ⟨firstName, first.expectedRevision, first.value⟩,
        ⟨secondName, second.expectedRevision, second.value⟩]
      match revisions with
      | [firstRevision, secondRevision] => return (firstRevision, secondRevision)
      | _ => .raise (.database "atomic state restore returned an invalid revision count")
  | _, _ => .raise (.config "atomic state restore requires PostgreSQL stores")

end RouteSmith.Model
