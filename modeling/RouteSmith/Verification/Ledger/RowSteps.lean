import RouteSmith.Model.Ledger.Transactions
import RouteSmith.Store.Logic

/-! # What a call may do to each row

`RowStep` says, table by table, which rows a call may insert and how it may change the
rows that exist. Every transaction keeps to it, and so does every run.
-/

namespace RouteSmith.Model.Ledger

open Store Store.Txn AList

/-! ## Equations of the record updates -/

section Record

variable (r : Record) (now : ℤ)

@[simp] theorem TerminalState.toRecordState_ne_started (state : TerminalState) :
    state.toRecordState ≠ .started := by
  cases state <;> simp [toRecordState]

@[simp] theorem Record.finalize_tenant (outcome : LedgerOutcome) :
    (r.finalize outcome now).tenant = r.tenant := rfl

@[simp] theorem Record.finalize_state (outcome : LedgerOutcome) :
    (r.finalize outcome now).state = outcome.state.toRecordState := rfl

@[simp] theorem AttemptRow.markUnreconciled_state (row : AttemptRow) :
    (row.markUnreconciled now).record.state = .failed := rfl

@[simp] theorem RequestRow.markUnreconciled_state (row : RequestRow) :
    (row.markUnreconciled now).record.state = .failed := rfl

theorem Record.inScope_iff {tenant : TenantKey} {leaseOwner : String} :
    r.inScope tenant leaseOwner ↔ r.tenant = tenant ∧ r.leaseOwner = leaseOwner := by
  simp [inScope]

theorem Record.openFor_iff {tenant : TenantKey} {leaseOwner : String} :
    r.openFor tenant leaseOwner ↔ r.inScope tenant leaseOwner ∧ r.state = .started := by
  simp [openFor]

theorem Record.expired_iff : r.expired now ↔ r.state = .started ∧ r.leaseExpiresAt ≤ now := by
  simp [expired]

end Record

/-! ## The relation -/

/-- How a call may change the record of an existing request. -/
def RequestStep (call : Call) (ledgerId : String) (old row : RequestRow) : Prop :=
  match call.operation with
  | .finalizeRequestUsage request usage =>
    ledgerId = request.ledgerId ∧ old.record.inScope request.tenant request.leaseOwner ∧
      row.idempotencyKeyHash = old.idempotencyKeyHash ∧
      (row.record = old.record ∨
        old.record.state = .started ∧ row.record = old.record.finalize (.fromUsage usage) call.now)
  | .renewLease request =>
    ledgerId = request.ledgerId ∧ old.record.openFor request.tenant request.leaseOwner ∧
      row = { old with record := old.record.renew call.now call.leaseTtl }
  | .reconcileExpired => old.record.expired call.now ∧ row = old.markUnreconciled call.now
  | _ => False

def AttemptStep (call : Call) (attemptId : String) (old row : AttemptRow) : Prop :=
  match call.operation with
  | .finalizeAttempt attempt outcome =>
    attemptId = attempt.attemptId ∧ old.record.openFor attempt.tenant attempt.leaseOwner ∧
      row = { old with record := old.record.finalize outcome call.now }
  | .renewLease request =>
    old.record.openFor request.tenant request.leaseOwner ∧
      row = { old with record := old.record.renew call.now call.leaseTtl }
  | .reconcileExpired => old.record.expired call.now ∧ row = old.markUnreconciled call.now
  | _ => False

/-- A reservation is closed once, by the finalization of its attempt or by reconciliation. -/
def ReservationStep (call : Call) (tenant : TenantKey) (attemptId : String)
    (old row : ReservationRow) : Prop :=
  old.state = .reserved ∧
    match call.operation with
    | .finalizeAttempt attempt _ =>
      tenant = attempt.tenant ∧ attemptId = attempt.attemptId ∧ row.state = .settled
    | .reconcileExpired => row.state = .released
    | _ => False

def RowStep (sha256 : String → String) (call : Call) :
    ∀ k : Key, Option (Row k) → Row k → Prop
  | .organization _, _, _ => True
  | .project _ _, _, _ => True
  | .environment _, _, _ => True
  | .request ledgerId, none, row => ∃ input, call.operation = .beginRequest input ∧
      ledgerId = "grq_" ++ call.uuid 0 ∧ row = input.row sha256 call
  | .request ledgerId, some old, row => RequestStep call ledgerId old row
  | .idempotency tenant hash, old, ledgerId => old = none ∧
      ∃ input, call.operation = .beginRequest input ∧ tenant = input.tenant ∧
        input.idempotencyKey.map sha256 = some hash ∧ ledgerId = "grq_" ++ call.uuid 0
  | .attempt attemptId, none, row => ∃ input, call.operation = .beginAttempt input ∧
      attemptId = input.attemptId ∧ row.record.tenant = input.request.tenant ∧
      row.record.leaseOwner = input.request.leaseOwner ∧ row.record.state = .started
  | .attempt attemptId, some old, row => AttemptStep call attemptId old row
  | .account _, _, row => row.check
  | .reservation tenant attemptId, none, row => ∃ input, call.operation = .beginAttempt input ∧
      tenant = input.request.tenant ∧ attemptId = input.attemptId ∧ row.state = .reserved
  | .reservation tenant attemptId, some old, row => ReservationStep call tenant attemptId old row
  | .reservationId _, old, _ => old = none
  | .event _, old, _ => old = none
  | .decision decisionId, old, row => old = none ∧ ∃ input, call.operation = .beginRequest input ∧
      input.metadata.routingDecision = some row.evidence ∧ decisionId = row.evidence.decisionId
  | .decisionRequest ledgerId, old, _ => old = none ∧
      ∃ input, call.operation = .beginRequest input ∧ ledgerId = "grq_" ++ call.uuid 0

theorem RowStep.trans {sha256 : String → String} {call : Call} (k : Key) (o : Option (Row k))
    (a b : Row k) (hab : RowStep sha256 call k o a) (hbc : RowStep sha256 call k (some a) b) :
    RowStep sha256 call k o b := by
  cases k with
  | organization | project | environment => trivial
  | account => exact hbc
  | idempotency => exact absurd hbc.1 (by simp)
  | reservationId | event => exact absurd hbc (by simp [RowStep])
  | decision | decisionRequest => exact absurd hbc.1 (by simp)
  | request =>
    cases o with
    | none =>
      obtain ⟨input, hop, -, -⟩ := hab
      simp [RowStep, RequestStep, hop] at hbc
    | some =>
      simp only [RowStep, RequestStep] at hab hbc ⊢
      split at hab
      next hop =>
        simp only [hop] at hbc
        obtain ⟨hid, hscope, hhash, ho⟩ := hab
        obtain ⟨-, -, hhash', ha⟩ := hbc
        refine ⟨hid, hscope, hhash'.trans hhash, ?_⟩
        rcases ho with ho | ⟨hstarted, ho⟩
        · rwa [ho] at ha
        · rcases ha with ha | ⟨hstarted', -⟩
          · exact .inr ⟨hstarted, ha.trans ho⟩
          · rw [ho] at hstarted'
            simp at hstarted'
      next hop =>
        simp only [hop] at hbc
        obtain ⟨hid, hopen, rfl⟩ := hab
        exact ⟨hid, hopen, hbc.2.2⟩
      next hop =>
        simp only [hop] at hbc
        obtain ⟨-, rfl⟩ := hab
        simp [Record.expired_iff] at hbc
      · exact hab.elim
  | attempt =>
    cases o with
    | none =>
      obtain ⟨_, hop, -⟩ := hab
      simp [RowStep, AttemptStep, hop] at hbc
    | some =>
      simp only [RowStep, AttemptStep] at hab hbc ⊢
      split at hab
      next hop =>
        simp only [hop] at hbc
        obtain ⟨-, -, rfl⟩ := hab
        simp [Record.openFor_iff] at hbc
      next hop =>
        simp only [hop] at hbc
        obtain ⟨hopen, rfl⟩ := hab
        exact ⟨hopen, hbc.2⟩
      next hop =>
        simp only [hop] at hbc
        obtain ⟨-, rfl⟩ := hab
        simp [Record.expired_iff] at hbc
      · exact hab.elim
  | reservation =>
    obtain ⟨hreserved, hbc⟩ := hbc
    cases o with
    | none =>
      obtain ⟨_, hop, -⟩ := hab
      simp [hop] at hbc
    | some =>
      obtain ⟨-, hab⟩ := hab
      split at hab
      · rw [hab.2.2] at hreserved
        cases hreserved
      · rw [hab] at hreserved
        cases hreserved
      · exact hab.elim

/-! ## Statements over several keys -/

variable {u v : Tables} {tenant : TenantKey} {x : Unit}

theorem constraint_account {row : AccountRow} (h : constraint v (.account tenant) row = none) :
    row.check := by
  simp only [constraint] at h
  split at h
  · cases h
  split at h
  · cases h
  · simpa using ‹¬(!row.check) = true›

theorem insertRequestExec_ok {ledgerId : String} {row : RequestRow} {x : Bool}
    (h : insertRequestExec ledgerId row v = .ok (u, x)) :
    (x = false ∧ u = ∅ ∧ ∃ hash, row.idempotencyKeyHash = some hash ∧
      (v.lookup (.idempotency row.record.tenant hash)).isSome) ∨
    (x = true ∧ v.lookup (.request ledgerId) = none ∧ (∀ hash, row.idempotencyKeyHash = some hash →
        v.lookup (.idempotency row.record.tenant hash) = none) ∧
      u = (row.idempotencyKeyHash.elim ∅ fun hash =>
        singleton (.idempotency row.record.tenant hash) ledgerId) ∪
          singleton (.request ledgerId) row) := by
  unfold insertRequestExec at h
  split at h
  · cases h
  split at h
  · cases h
  split at h
  next hconflict =>
    cases h
    exact .inl ⟨rfl, rfl, by simpa [Option.any_eq_true] using hconflict⟩
  rename_i hfree
  split at h
  · cases h
  rename_i hnew
  split at h
  · cases h
  cases h
  refine .inr ⟨rfl, Option.not_isSome_iff_eq_none.mp hnew, fun _ hhash => ?_, rfl⟩
  rw [hhash] at hfree
  exact Option.not_isSome_iff_eq_none.mp hfree

theorem insertDecisionExec_ok {row : DecisionRow} (h : insertDecisionExec row v = .ok (u, x)) :
    v.lookup (.decision row.evidence.decisionId) = none ∧
      v.lookup (.decisionRequest row.requestLedgerId) = none ∧
      u = singleton (.decisionRequest row.requestLedgerId) row.evidence.decisionId ∪
        singleton (.decision row.evidence.decisionId) row := by
  unfold insertDecisionExec at h
  dsimp only at h
  split at h
  · cases h
  split at h
  · cases h
  rename_i hnew
  cases h
  simp only [Bool.or_eq_true, not_or, Option.not_isSome_iff_eq_none] at hnew
  exact ⟨hnew.1, hnew.2, rfl⟩

theorem insertAttemptExec_ok {request : LedgerRequest} {attemptId : String} {row : AttemptRow}
    {x : Bool} (h : insertAttemptExec request attemptId row v = .ok (u, x)) : (x = false ∧ u = ∅) ∨
      (x = true ∧ v.lookup (.attempt attemptId) = none ∧
        u = singleton (.attempt attemptId) row) := by
  unfold insertAttemptExec at h
  split at h
  · split at h
    · cases h
    next hnew =>
      obtain ⟨-, hu, hx⟩ := put_ok h
      exact .inr ⟨hx, Option.not_isSome_iff_eq_none.mp hnew, hu⟩
  · cases h
    exact .inl ⟨rfl, rfl⟩

theorem insertReservationExec_ok {attemptId : String} {row : ReservationRow}
    (h : insertReservationExec tenant attemptId row v = .ok (u, x)) :
    v.lookup (.reservationId row.reservationId) = none ∧
      v.lookup (.reservation tenant attemptId) = none ∧
      u = singleton (Key.reservationId row.reservationId) (tenant, attemptId) ∪
        singleton (.reservation tenant attemptId) row := by
  unfold insertReservationExec at h
  split at h
  · cases h
  split at h
  · cases h
  rename_i hnew
  cases h
  simp only [Bool.or_eq_true, not_or, Option.not_isSome_iff_eq_none] at hnew
  exact ⟨hnew.1, hnew.2, rfl⟩

theorem upsertLimitExec_ok {limit : Option ℤ} {now : ℤ}
    (h : upsertLimitExec tenant limit now v = .ok (u, x)) :
    ∃ row, row.check ∧ u = singleton (.account tenant) row ∧
      row.reservedMicrounits =
        ((v.lookup (Key.account tenant)).elim 0 (·.reservedMicrounits)) ∧
      row.settledMicrounits =
        ((v.lookup (Key.account tenant)).elim 0 (·.settledMicrounits)) := by
  unfold upsertLimitExec at h
  split at h <;> rename_i hlookup <;> obtain ⟨hc, hu, -⟩ := put_ok h <;>
    exact ⟨_, constraint_account hc, hu, by rw [hlookup]; rfl, by rw [hlookup]; rfl⟩

/-! ## Every transaction keeps to the relation -/

section Programs

variable {sha256 : String → String} {call : Call}

theorem respects_ensureTenantCatalog (tenant : TenantKey) :
    (ensureTenantCatalog tenant).Respects (RowStep sha256 call) := by
  refine respects_bind (respects_insertIgnore fun _ _ => trivial) fun _ => ?_
  refine respects_bind (respects_insertIgnore fun _ _ => trivial) fun _ => ?_
  exact respects_bind (respects_insertIgnore fun _ _ => trivial) fun _ => respects_pure _

variable {input : BeginRequest} {attempt : LedgerAttempt}

theorem respects_insertRequest (hop : call.operation = .beginRequest input) :
    (statement (insertRequestExec ("grq_" ++ call.uuid 0) (input.row sha256 call))).Respects
      (RowStep sha256 call) := by
  refine respects_statement fun v u x h k _ hk => ?_
  rcases insertRequestExec_ok h with ⟨-, rfl, -⟩ | ⟨-, hnew, hfree, rfl⟩
  · simp at hk
  rcases lookup_eq_or _ _ hk with hk | ⟨-, hk⟩
  · cases hhash : input.idempotencyKey.map sha256 with
    | none => simp [BeginRequest.row, hhash] at hk
    | some hash =>
      simp only [BeginRequest.row, hhash] at hk
      obtain ⟨rfl, rfl⟩ := lookup_singleton hk
      exact ⟨hfree hash hhash, input, hop, rfl, hhash, rfl⟩
  · obtain ⟨rfl, rfl⟩ := lookup_singleton hk
    rw [hnew]
    exact ⟨input, hop, rfl, rfl⟩

theorem respects_insertRoutingDecision (hop : call.operation = .beginRequest input) :
    (insertRoutingDecision ("grq_" ++ call.uuid 0) input.tenant
      input.metadata.routingDecision).Respects (RowStep sha256 call) := by
  cases hd : input.metadata.routingDecision with
  | none => exact respects_pure ()
  | some =>
    refine respects_statement fun v u x h k _ hk => ?_
    obtain ⟨hnew, hrequest, rfl⟩ := insertDecisionExec_ok h
    rcases lookup_eq_or _ _ hk with hk | ⟨-, hk⟩
    · obtain ⟨rfl, rfl⟩ := lookup_singleton hk
      exact ⟨hrequest, input, hop, rfl⟩
    · obtain ⟨rfl, rfl⟩ := lookup_singleton hk
      exact ⟨hnew, input, hop, hd, rfl⟩

theorem reportConflictExec_ne_ok (input : BeginRequest) (hash : String) (v : Tables)
    (result : Tables × Reply) : reportConflictExec input hash v ≠ .ok result := by
  unfold reportConflictExec
  split <;> nofun

theorem respects_reportConflict (input : BeginRequest) (hash : Option String) :
    (reportConflict input hash).Respects (RowStep sha256 call) := by
  cases hash with
  | none => exact respects_raise _
  | some hash =>
    exact respects_statement fun v u x h => absurd h (reportConflictExec_ne_ok _ hash v _)

theorem respects_beginRequest (hop : call.operation = .beginRequest input) :
    (beginRequestWithMetadata sha256 input call).Respects (RowStep sha256 call) := by
  refine respects_bind (respects_ofExcept _) fun _ => ?_
  refine respects_bind (respects_ensureTenantCatalog _) fun _ => ?_
  refine respects_bind (respects_insertRequest hop) fun inserted => ?_
  cases inserted with
  | true => exact respects_bind (respects_insertRoutingDecision hop) fun _ => respects_pure _
  | false => exact respects_reportConflict input _

variable {eventId : String} {outcome : LedgerOutcome} {request : LedgerRequest}

theorem respects_insertBudgetEvent {eventType : EventType} {reservedDelta settledDelta : ℤ}
    {evidenceSource : String} {billingMode reason : Option String} {estimate : UsageEstimate} :
    (insertBudgetEvent attempt eventId eventType reservedDelta settledDelta evidenceSource
      billingMode reason estimate).Respects (RowStep sha256 call) :=
  respects_insertNew fun _ _ => rfl

theorem respects_updateAccount {change : AccountRow → Except AppError (Option AccountRow)} :
    (update constraint (.account tenant) change).Respects (RowStep sha256 call) :=
  respects_update fun _ _ _ _ => constraint_account

theorem respects_reserveBudget {input : BeginAttempt} (hop : call.operation = .beginAttempt input) :
    (reserveBudget input call).Respects (RowStep sha256 call) := by
  refine respects_found respects_updateAccount (respects_raise _) fun _ => ?_
  refine respects_bind (respects_statement fun v u x h k _ hk => ?_) fun _ => ?_
  · obtain ⟨hid, hnew, rfl⟩ := insertReservationExec_ok h
    rcases lookup_eq_or _ _ hk with hk | ⟨-, hk⟩
    · obtain ⟨rfl, rfl⟩ := lookup_singleton hk
      exact hid
    · obtain ⟨rfl, rfl⟩ := lookup_singleton hk
      rw [hnew]
      exact ⟨input, hop, rfl, rfl, rfl⟩
  · exact respects_bind respects_insertBudgetEvent fun _ => respects_pure _

theorem respects_beginAttempt {input : BeginAttempt} (hop : call.operation = .beginAttempt input) :
    (beginAttempt input call).Respects (RowStep sha256 call) := by
  refine respects_bind (respects_statement fun v u x h k _ hk => ?_) fun found => ?_
  · rcases insertAttemptExec_ok h with ⟨-, rfl⟩ | ⟨-, hnew, rfl⟩
    · simp at hk
    · obtain ⟨rfl, rfl⟩ := lookup_singleton hk
      rw [hnew]
      exact ⟨input, hop, rfl, rfl, rfl, rfl⟩
  cases found with
  | false => exact respects_raise _
  | true =>
    refine respects_bind (respects_insertIgnore fun _ => constraint_account) fun _ => ?_
    exact respects_reserveBudget hop

theorem respects_settleBudget (hop : call.operation = .finalizeAttempt attempt outcome) :
    (settleBudget attempt outcome call).Respects (RowStep sha256 call) := by
  refine respects_found (respects_update fun v _ _ h _ => ?_) (respects_raise _) fun _ =>
    respects_found respects_updateAccount (respects_raise _) fun _ => respects_insertBudgetEvent
  obtain ⟨hold, rfl⟩ := ok_ite_eq_some.mp h
  exact ⟨hold, by simp [hop]⟩

theorem respects_finalizeAttempt (hop : call.operation = .finalizeAttempt attempt outcome) :
    (finalizeAttempt attempt outcome call).Respects (RowStep sha256 call) := by
  have hupdate : (updateTerminalAttempt attempt.attemptId attempt.tenant attempt.leaseOwner
      outcome call.now).Respects (RowStep sha256 call) := by
    refine respects_bind (respects_update fun v _ _ h _ => ?_) fun _ => respects_pure _
    obtain ⟨hold, rfl⟩ := ok_ite_eq_some.mp h
    simp [RowStep, AttemptStep, hop, hold]
  refine respects_bind hupdate fun updated => ?_
  cases updated with
  | true => exact respects_bind (respects_settleBudget hop) fun _ => respects_pure _
  | false =>
    refine respects_bind (respects_query _) fun _ => ?_
    split
    · exact respects_pure _
    · exact respects_raise _

theorem respects_finalizeRequestUsage {usage : UsageEventInput}
    (hop : call.operation = .finalizeRequestUsage request usage) :
    (finalizeRequestUsage request usage call).Respects (RowStep sha256 call) := by
  have hterminal : (updateTerminalRequest request.ledgerId request.tenant request.leaseOwner
      (.fromUsage usage) call.now).Respects (RowStep sha256 call) := by
    refine respects_bind (respects_update fun v old _ h _ => ?_) fun _ => respects_pure _
    obtain ⟨hold, rfl⟩ := ok_ite_eq_some.mp h
    obtain ⟨hscope, hstarted⟩ := old.record.openFor_iff.mp hold
    simp [RowStep, RequestStep, hop, hscope, hstarted]
  refine respects_bind hterminal fun updated => ?_
  cases updated with
  | false => exact respects_raise _
  | true =>
    refine respects_bind (respects_update fun v _ _ h _ => ?_) fun _ => respects_pure _
    obtain ⟨hold, rfl⟩ := ok_ite_eq_some.mp h
    simp [RowStep, RequestStep, hop, hold]

theorem respects_renewLease (hop : call.operation = .renewLease request) :
    (renewLease request call).Respects (RowStep sha256 call) := by
  refine respects_bind (respects_update fun v _ _ h _ => ?_) fun _ => ?_
  · obtain ⟨hold, rfl⟩ := ok_ite_eq_some.mp h
    simp [RowStep, RequestStep, hop, hold]
  refine respects_bind (respects_query _) fun _ => ?_
  refine respects_bind (respects_updateEach (fun i v _ _ h _ => ?_) _) fun _ => respects_pure _
  obtain ⟨hold, rfl⟩ := ok_ite_eq_some.mp h
  simp only [Bool.and_eq_true] at hold
  simp [RowStep, AttemptStep, hop, hold.2]

theorem respects_releaseBudget {attemptId : String} {tenant : TenantKey} {now : ℤ}
    (hop : call.operation = .reconcileExpired) :
    (releaseBudget attemptId tenant eventId now).Respects (RowStep sha256 call) := by
  refine respects_found (respects_update fun v _ _ h _ => ?_) (respects_pure _) fun _ =>
    respects_found respects_updateAccount (respects_raise _) fun _ => respects_insertBudgetEvent
  obtain ⟨hold, rfl⟩ := ok_ite_eq_some.mp h
  exact ⟨hold, by simp [hop]⟩

theorem respects_reconcileExpired (hop : call.operation = .reconcileExpired) :
    (reconcileExpired call).Respects (RowStep sha256 call) := by
  refine respects_bind (respects_query _) fun _ => ?_
  refine respects_bind (respects_updateEach (fun i v _ _ h _ => ?_) _) fun _ => ?_
  · obtain ⟨hold, rfl⟩ := ok_ite_eq_some.mp h
    simp [RowStep, AttemptStep, hop, hold]
  refine respects_bind (respects_forM (fun _ => respects_releaseBudget hop) _) fun _ => ?_
  refine respects_bind (respects_query _) fun _ => ?_
  refine respects_bind (respects_updateEach (fun i v _ _ h _ => ?_) _) fun _ => respects_pure _
  obtain ⟨hold, rfl⟩ := ok_ite_eq_some.mp h
  simp [RowStep, RequestStep, hop, hold]

theorem respects_updateBudget (input : EnterpriseBudgetUpdate) :
    (updateBudget input call).Respects (RowStep sha256 call) := by
  refine respects_bind (respects_ofExcept _) fun _ => ?_
  refine respects_bind (respects_ofExcept _) fun _ => ?_
  refine respects_bind (respects_statement fun v u x h k _ hk => ?_) fun _ => respects_pure _
  obtain ⟨_, hcheck, rfl, -⟩ := upsertLimitExec_ok h
  obtain ⟨rfl, rfl⟩ := lookup_singleton hk
  exact hcheck

theorem respects_adjustBudget (input : EnterpriseBudgetAdjustmentInput) (actorId : String) :
    (adjustBudget input actorId call).Respects (RowStep sha256 call) := by
  refine respects_bind (respects_ofExcept _) fun _ => ?_
  refine respects_bind (respects_ofExcept _) fun _ => ?_
  refine respects_bind (respects_insertIgnore fun _ => constraint_account) fun _ => ?_
  exact respects_found respects_updateAccount (respects_raise _) fun _ =>
    respects_bind (respects_insertNew fun _ _ => rfl) fun _ => respects_pure _

variable (sha256 call) in
/-- No transaction of the ledger changes a row in any other way. -/
theorem respects_program : (call.program sha256).Respects (RowStep sha256 call) := by
  unfold Call.program
  cases hop : call.operation with
  | beginRequest => exact respects_beginRequest hop
  | beginAttempt => exact respects_beginAttempt hop
  | finalizeAttempt => exact respects_finalizeAttempt hop
  | finalizeRequestUsage => exact respects_finalizeRequestUsage hop
  | renewLease => exact respects_renewLease hop
  | reconcileExpired => exact respects_reconcileExpired hop
  | updateBudget input => exact respects_updateBudget input
  | adjustBudget input actorId => exact respects_adjustBudget input actorId

end Programs

/-! ## Runs of the ledger -/

abbrev LedgerServer := Server Call Row AppError Reply

/-- The states that calls, interleaved in any way, can lead an empty ledger to. -/
def Reachable (sha256 : String → String) (created : ℤ) (s : LedgerServer) : Prop :=
  Server.Run (Call.program sha256) (Server.initial (migrated created)) s

theorem sessionInvariant_rowStep (sha256 : String → String) :
    Server.SessionInvariant (Call.program sha256) (fun _ => True)
      (Server.Traced (RowStep sha256)) :=
  .of_respects (fun _ => .trans) fun call => respects_program _ call

variable {sha256 : String → String} {created : ℤ} {s s' : LedgerServer}

theorem Reachable.traced (h : Reachable sha256 created s) :
    Server.Holds (fun _ => True) (Server.Traced (RowStep sha256)) s :=
  Server.Run.holds (sessionInvariant_rowStep _) h (.initial trivial)

theorem lookup_migrated_account (created : ℤ) (tenant : TenantKey) :
    (migrated created).lookup (.account tenant) =
      if tenant = .local then some { updatedAt := created } else none := by
  split
  · subst tenant
    exact lookup_insert _
  next hne =>
    rw [migrated, lookup_insert_ne (by simpa using hne)]
    rfl

theorem Reachable.account_check (h : Reachable sha256 created s) {account : AccountRow}
    (haccount : s.db.lookup (.account tenant) = some account) : account.check := by
  let P : ∀ k, Row k → Prop := fun
    | .account _, row => row.check
    | _, _ => True
  refine Server.Run.row_invariant (P := P) (sessionInvariant_rowStep _)
    (fun _ k _ _ hstep _ => ?_) (fun k _ hrow => ?_) h _ _ haccount
  · cases k <;> trivial
  · cases k with
    | account =>
      rw [lookup_migrated_account] at hrow
      split at hrow <;> cases hrow
      rfl
    | _ => trivial

end RouteSmith.Model.Ledger
