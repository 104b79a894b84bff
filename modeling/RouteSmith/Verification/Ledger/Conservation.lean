import RouteSmith.Verification.Ledger.RowSteps

/-! # Budget conservation

The balances of an account are those its open and settled reservations, its adjustments
and its event log add up to, in every state that commits can reach.
-/

namespace RouteSmith.Model.Ledger

open Store Store.Txn AccountRow

/-! ## The sums -/

section Sums

variable (tenant : TenantKey)

def accountReserved : ∀ k : Key, Row k → ℤ
  | .account t, row => if t = tenant then row.reservedMicrounits else 0
  | _, _ => 0

def accountSettled : ∀ k : Key, Row k → ℤ
  | .account t, row => if t = tenant then row.settledMicrounits else 0
  | _, _ => 0

/-- Over the tenant's reservations in state `reserved`. -/
def reservedReservations : ∀ k : Key, Row k → ℤ
  | .reservation t _, row =>
    if t = tenant ∧ row.state = .reserved then row.reservedMicrounits else 0
  | _, _ => 0

/-- Over the tenant's reservations in state `settled`. -/
def settledReservations : ∀ k : Key, Row k → ℤ
  | .reservation t _, row =>
    if t = tenant ∧ row.state = .settled then row.settledMicrounits else 0
  | _, _ => 0

/-- Over the tenant's adjustment events. -/
def adjustmentDeltas : ∀ k : Key, Row k → ℤ
  | .event _, row =>
    if row.tenant = tenant ∧ row.eventType = .adjustment then row.settledDeltaMicrounits else 0
  | _, _ => 0

/-- Over all the tenant's budget events. -/
def reservedDeltas : ∀ k : Key, Row k → ℤ
  | .event _, row => if row.tenant = tenant then row.reservedDeltaMicrounits else 0
  | _, _ => 0

def settledDeltas : ∀ k : Key, Row k → ℤ
  | .event _, row => if row.tenant = tenant then row.settledDeltaMicrounits else 0
  | _, _ => 0

/-- What the four conservation laws balance, row by row. -/
def balance (k : Key) (row : Row k) : ℤ × ℤ × ℤ × ℤ :=
  (accountReserved tenant k row - reservedReservations tenant k row,
   accountSettled tenant k row - settledReservations tenant k row - adjustmentDeltas tenant k row,
   accountReserved tenant k row - reservedDeltas tenant k row,
   accountSettled tenant k row - settledDeltas tenant k row)

end Sums

/-- The account row of a tenant, with zero balances where there is none yet. -/
def accountOf (db : Tables) (tenant : TenantKey) : AccountRow :=
  (db.lookup (Key.account tenant)).getD ({ updatedAt := 0 } : AccountRow)

/-- Balances, reservations, adjustments and events of a tenant agree. -/
structure BudgetBalanced (tenant : TenantKey) (db : Tables) : Prop where
  reserved_eq : (accountOf db tenant).reservedMicrounits = sumBy (reservedReservations tenant) db
  settled_eq : (accountOf db tenant).settledMicrounits =
    sumBy (settledReservations tenant) db + sumBy (adjustmentDeltas tenant) db
  reserved_events : (accountOf db tenant).reservedMicrounits = sumBy (reservedDeltas tenant) db
  settled_events : (accountOf db tenant).settledMicrounits = sumBy (settledDeltas tenant) db
  reserved_nonneg : 0 ≤ (accountOf db tenant).reservedMicrounits
  settled_nonneg : 0 ≤ (accountOf db tenant).settledMicrounits

theorem sumBy_accountReserved (tenant : TenantKey) (db : Tables) :
    sumBy (accountReserved tenant) db = (accountOf db tenant).reservedMicrounits := by
  have hf : ∀ k row, k ≠ .account tenant → accountReserved tenant k row = 0 := by
    intro k _ hk
    cases k <;> simp_all [accountReserved]
  rw [sumBy_eq_measure hf, accountOf]
  cases db.lookup (.account tenant) <;> simp [accountReserved]

theorem sumBy_accountSettled (tenant : TenantKey) (db : Tables) :
    sumBy (accountSettled tenant) db = (accountOf db tenant).settledMicrounits := by
  have hf : ∀ k row, k ≠ .account tenant → accountSettled tenant k row = 0 := by
    intro k _ hk
    cases k <;> simp_all [accountSettled]
  rw [sumBy_eq_measure hf, accountOf]
  cases db.lookup (.account tenant) <;> simp [accountSettled]

theorem sumBy_balance (tenant : TenantKey) (db : Tables) : sumBy (balance tenant) db =
      ((accountOf db tenant).reservedMicrounits - sumBy (reservedReservations tenant) db,
       (accountOf db tenant).settledMicrounits - sumBy (settledReservations tenant) db -
         sumBy (adjustmentDeltas tenant) db,
       (accountOf db tenant).reservedMicrounits - sumBy (reservedDeltas tenant) db,
       (accountOf db tenant).settledMicrounits - sumBy (settledDeltas tenant) db) := by
  unfold balance
  simp only [sumBy_prodMk, sumBy_sub, sumBy_accountReserved, sumBy_accountSettled]

/-! ## Rows off the balance -/

section Balance

variable {tenant : TenantKey}

theorem balance_account (t : TenantKey) (row : AccountRow) :
    balance tenant (.account t) row = if t = tenant then
      (row.reservedMicrounits, row.settledMicrounits, row.reservedMicrounits,
        row.settledMicrounits) else 0 := by
  by_cases h : t = tenant <;> simp [balance, accountReserved, accountSettled, reservedReservations,
    settledReservations, adjustmentDeltas, reservedDeltas, settledDeltas, h]

theorem balance_reservation (t : TenantKey) (attemptId : String) (row : ReservationRow) :
    balance tenant (.reservation t attemptId) row = if t = tenant then
      (-(if row.state = .reserved then row.reservedMicrounits else 0),
        -(if row.state = .settled then row.settledMicrounits else 0), 0, 0) else 0 := by
  by_cases h : t = tenant <;> simp [balance, accountReserved, accountSettled, reservedReservations,
    settledReservations, adjustmentDeltas, reservedDeltas, settledDeltas, h]

theorem balance_event (eventId : String) (row : EventRow) :
    balance tenant (.event eventId) row = if row.tenant = tenant then
      (0, -(if row.eventType = .adjustment then row.settledDeltaMicrounits else 0),
        -row.reservedDeltaMicrounits, -row.settledDeltaMicrounits) else 0 := by
  by_cases h : row.tenant = tenant <;> simp [balance, accountReserved, accountSettled,
    reservedReservations, settledReservations, adjustmentDeltas, reservedDeltas, settledDeltas, h]

/-- The tables whose rows carry no amounts. -/
def Key.Neutral : Key → Prop
  | .account _ => False
  | .reservation _ _ => False
  | .event _ => False
  | _ => True

theorem balance_of_neutral {k : Key} (hk : k.Neutral) (row : Row k) : balance tenant k row = 0 := by
  cases k <;> first | rfl | exact hk.elim

theorem deltaBy_balance_singleton {k : Key} (hk : k.Neutral) (row : Row k) (v : Tables) :
    deltaBy (balance tenant) (.singleton k row) v = 0 :=
  deltaBy_singleton_eq_zero (balance_of_neutral hk) row v

/-! ## Every transaction conserves the balance -/

variable {c : ℤ × ℤ × ℤ × ℤ}

/-- What the rows of a transaction add to the balance is nothing. -/
abbrev Conserves {α : Type} (tenant : TenantKey) (t : Txn Row AppError α)
    (c : ℤ × ℤ × ℤ × ℤ) : Prop :=
  t.Tally (balance tenant) (fun _ c' => c' = c) c

theorem tally_ensureTenantCatalog (t : TenantKey) :
    Conserves tenant (ensureTenantCatalog t) c := by
  have hinsert : ∀ {k} {row} {Q}, k.Neutral →
      (∀ x, Q x c) → (insertIgnore constraint k row).Tally (balance tenant) Q c := by
    intro k _ Q hk hQ
    refine tally_insertIgnore (hQ false) ?_
    rw [balance_of_neutral hk, add_zero]
    exact hQ true
  simp only [ensureTenantCatalog, tally_bind]
  exact hinsert trivial fun _ => hinsert trivial fun _ => hinsert trivial fun _ =>
    (tally_pure () _).mpr rfl

theorem tally_beginRequest (sha256 : String → String) (input : BeginRequest) (call : Call) :
    Conserves tenant (beginRequestWithMetadata sha256 input call) 0 := by
  simp only [beginRequestWithMetadata, tally_bind]
  refine tally_ofExcept fun _ _ => (tally_ensureTenantCatalog _).mono ?_
  rintro - c rfl
  refine tally_statement fun v u _ h => ?_
  rcases insertRequestExec_ok h with ⟨rfl, rfl, -⟩ | ⟨rfl, -, -, rfl⟩
  · cases hhash : (input.row sha256 call).idempotencyKeyHash with
    | none => exact tally_raise _ _
    | some hash =>
      exact tally_statement fun v u x h => absurd h (reportConflictExec_ne_ok _ hash v _)
  · have hzero : deltaBy (balance tenant)
        (((input.row sha256 call).idempotencyKeyHash.elim ∅ fun hash =>
        .singleton (.idempotency (input.row sha256 call).record.tenant hash)
          ("grq_" ++ call.uuid 0)) ∪
        .singleton (.request ("grq_" ++ call.uuid 0)) (input.row sha256 call)) v = 0 := by
      rw [deltaBy_union, deltaBy_balance_singleton (by trivial), zero_add]
      cases (input.row sha256 call).idempotencyKeyHash with
      | none => rfl
      | some => exact deltaBy_balance_singleton (by trivial) _ _
    rw [hzero]
    simp only [if_true, tally_bind, tally_pure]
    cases input.metadata.routingDecision with
    | none => exact (tally_pure () _).mpr rfl
    | some =>
      refine tally_statement fun v u _ h => ?_
      obtain ⟨-, -, rfl⟩ := insertDecisionExec_ok h
      rw [deltaBy_union, deltaBy_balance_singleton (by trivial),
        deltaBy_balance_singleton (by trivial)]
      rfl

theorem tally_insertBudgetEvent {attempt : LedgerAttempt} {eventId : String}
    {eventType : EventType} {reservedDelta settledDelta : ℤ} {evidenceSource : String}
    {billingMode reason : Option String} {estimate : UsageEstimate}
    {Q : Unit → ℤ × ℤ × ℤ × ℤ → Prop} (hevent : eventType ≠ .adjustment)
    (hQ : Q () (c + if attempt.tenant = tenant then (0, 0, -reservedDelta, -settledDelta) else 0)) :
    (insertBudgetEvent attempt eventId eventType reservedDelta settledDelta evidenceSource
      billingMode reason estimate).Tally (balance tenant) Q c := by
  refine tally_insertNew ?_
  rw [balance_event]
  simpa [hevent] using hQ

variable {t : TenantKey} {now : ℤ} {a row : AccountRow}

theorem tally_account_update (dr ds : ℤ) {change : AccountRow → Except AppError (Option AccountRow)}
    (hchange : ∀ old row, change old = .ok (some row) →
      row.reservedMicrounits = old.reservedMicrounits + dr ∧
        row.settledMicrounits = old.settledMicrounits + ds)
    {Q : Option AccountRow → ℤ × ℤ × ℤ × ℤ → Prop} (hnone : Q none c)
    (hsome : ∀ row, Q (some row) (c + if t = tenant then (dr, ds, dr, ds) else 0)) :
    (update constraint (.account t) change).Tally (balance tenant) Q c := by
  refine tally_update hnone fun old row hrow => ?_
  obtain ⟨hr, hs⟩ := hchange old row hrow
  have hdelta : balance tenant (.account t) row - balance tenant (.account t) old =
      if t = tenant then (dr, ds, dr, ds) else 0 := by
    rw [balance_account, balance_account]
    split
    · simp [hr, hs]
    · rfl
  rw [hdelta]
  exact hsome row

theorem tally_insertAccount {Q : Bool → ℤ × ℤ × ℤ × ℤ → Prop} (hQ : ∀ x, Q x c) :
    (insertIgnore constraint (.account t) { updatedAt := now }).Tally (balance tenant) Q c := by
  refine tally_insertIgnore (hQ false) ?_
  rw [balance_account]
  convert hQ true
  split <;> simp

/-- Closing a reservation: the amount held is freed, what was settled is spent. -/
theorem tally_closeReservation {attemptId : String} (settled : ℤ)
    {change : ReservationRow → Except AppError (Option ReservationRow)}
    (hchange : ∀ old row, change old = .ok (some row) → old.state = .reserved ∧
      row.reservedMicrounits = old.reservedMicrounits ∧ row.state ≠ .reserved ∧
        (if row.state = .settled then row.settledMicrounits else 0) = settled)
    {Q : Option ReservationRow → ℤ × ℤ × ℤ × ℤ → Prop} (hnone : Q none c)
    (hsome : ∀ row, Q (some row)
      (c + if t = tenant then (row.reservedMicrounits, -settled, 0, 0) else 0)) :
    (update constraint (.reservation t attemptId) change).Tally (balance tenant) Q c := by
  refine tally_update hnone fun old row hrow => ?_
  obtain ⟨hold, hr, hstate, hs⟩ := hchange old row hrow
  have hdelta : balance tenant (.reservation t attemptId) row -
      balance tenant (.reservation t attemptId) old =
        if t = tenant then (row.reservedMicrounits, -settled, 0, 0) else 0 := by
    rw [balance_reservation, balance_reservation, hs]
    split
    · simp [hold, hr, Prod.ext_iff]
    · rfl
  rw [hdelta]
  exact hsome row

theorem AccountRow.reserve_ok {amount : ℤ} (h : a.reserve amount now = .ok (some row)) :
    row.reservedMicrounits = a.reservedMicrounits + amount ∧
      row.settledMicrounits = a.settledMicrounits ∧ row.limitMicrounits = a.limitMicrounits ∧
      ∀ limit, a.limitMicrounits = some limit →
        a.settledMicrounits + a.reservedMicrounits + amount ≤ limit := by
  simp only [reserve] at h
  split at h
  next hlimit =>
    cases h
    simp [hlimit]
  next limit hlimit =>
    split at h
    · cases h
    split at h
    · cases h
      rename_i hle
      simpa [hlimit] using hle
    · cases h

theorem AccountRow.settle_ok {reserved settled : ℤ}
    (h : a.settle reserved settled now = .ok (some row)) :
    row.reservedMicrounits = a.reservedMicrounits + -reserved ∧
      row.settledMicrounits = a.settledMicrounits + settled := by
  simp only [settle] at h
  split at h
  · cases h
    exact ⟨Int.sub_eq_add_neg, rfl⟩
  · cases h

theorem AccountRow.adjust_ok {delta : ℤ} (h : a.adjust delta now = .ok (some row)) :
    row.reservedMicrounits = a.reservedMicrounits + 0 ∧
      row.settledMicrounits = a.settledMicrounits + delta := by
  simp only [adjust] at h
  split at h
  · cases h
  split at h
  · cases h
    exact ⟨(add_zero _).symm, rfl⟩
  · cases h

theorem tally_reserveBudget (input : BeginAttempt) (call : Call) :
    Conserves tenant (reserveBudget input call) c := by
  simp only [reserveBudget, tally_bind]
  refine tally_account_update input.amount 0 (fun _ _ h => ?_) (tally_raise _ _) fun _ => ?_
  · obtain ⟨hr, hs, -⟩ := reserve_ok h
    exact ⟨hr, hs.trans (add_zero _).symm⟩
  simp only [tally_bind]
  refine tally_statement fun v u _ h => ?_
  obtain ⟨-, hnew, rfl⟩ := insertReservationExec_ok h
  refine tally_insertBudgetEvent (by simp) ?_
  rw [deltaBy_union, deltaBy_singleton, hnew, balance_reservation,
    deltaBy_balance_singleton (by trivial)]
  by_cases ht : input.request.tenant = tenant <;> simp [BeginAttempt.attempt, ht, add_assoc]

theorem tally_beginAttempt (input : BeginAttempt) (call : Call) :
    Conserves tenant (beginAttempt input call) 0 := by
  simp only [beginAttempt, tally_bind]
  refine tally_statement fun v u _ h => ?_
  rcases insertAttemptExec_ok h with ⟨rfl, rfl⟩ | ⟨rfl, -, rfl⟩
  · exact tally_raise _ _
  rw [deltaBy_balance_singleton (by trivial)]
  simp only [Bool.not_true, Bool.false_eq_true, if_false, tally_bind]
  exact tally_insertAccount fun _ => tally_reserveBudget _ call

theorem tally_settleBudget (attempt : LedgerAttempt) (outcome : LedgerOutcome) (call : Call) :
    Conserves tenant (settleBudget attempt outcome call) c := by
  simp only [settleBudget, tally_bind]
  refine tally_closeReservation (costMicrounits outcome.estimate.costEstimate) (fun _ _ h => ?_)
    (tally_raise _ _) fun _ => ?_
  · obtain ⟨hold, rfl⟩ := ok_ite_eq_some.mp h
    simp [hold]
  simp only [tally_bind]
  refine tally_account_update _
    (costMicrounits _) (fun _ _ => settle_ok)
    (tally_raise _ _) fun _ => ?_
  refine tally_insertBudgetEvent (by simp) ?_
  by_cases ht : attempt.tenant = tenant <;> simp [ht, add_assoc]

theorem tally_finalizeAttempt (attempt : LedgerAttempt) (outcome : LedgerOutcome) (call : Call) :
    Conserves tenant (finalizeAttempt attempt outcome call) 0 := by
  simp only [finalizeAttempt, updateTerminalAttempt, tally_bind, tally_pure]
  refine tally_update ?_ fun _ _ _ => ?_
  · simp only [Option.isSome_none, Bool.false_eq_true, if_false, tally_bind]
    refine tally_query fun v => ?_
    split
    · exact (tally_pure _ _).mpr rfl
    · exact tally_raise _ _
  · simp only [Option.isSome_some, if_true, tally_bind, tally_pure]
    exact tally_settleBudget _ _ call

theorem tally_finalizeRequestUsage (request : LedgerRequest) (usage : UsageEventInput)
    (call : Call) :
    Conserves tenant (finalizeRequestUsage request usage call) 0 := by
  have hneutral : ∀ row, balance tenant (.request request.ledgerId) row = 0 :=
    balance_of_neutral trivial
  simp only [finalizeRequestUsage, updateTerminalRequest, tally_bind, tally_pure]
  refine tally_update (tally_raise _ _) fun _ _ _ => ?_
  simp only [Option.isSome_some, Bool.not_true, Bool.false_eq_true, if_false, tally_bind,
    tally_pure]
  refine tally_update rfl fun _ _ _ => ?_
  rfl

theorem tally_renewLease (request : LedgerRequest) (call : Call) :
    Conserves tenant (renewLease request call) 0 := by
  have hattempts : ∀ v, (updateEach constraint .attempt (fun _ row =>
      .ok (if row.requestLedgerId == request.ledgerId &&
          row.record.openFor request.tenant request.leaseOwner then
        some { row with record := row.record.renew call.now call.leaseTtl } else none)) v).Tally
      (balance tenant) (fun _ c => c = 0) 0 :=
    tally_updateEach (fun _ _ _ _ => rfl) fun _ => rfl
  simp only [renewLease, tally_bind, tally_pure]
  refine tally_update (tally_query fun v => hattempts _) fun _ _ _ => ?_
  exact tally_query fun v => hattempts _

theorem tally_releaseBudget (attemptId : String) (t : TenantKey) (eventId : String) (now : ℤ) :
    Conserves tenant (releaseBudget attemptId t eventId now) c := by
  simp only [releaseBudget, tally_bind]
  refine tally_closeReservation 0 (fun _ _ h => ?_) ((tally_pure _ _).mpr rfl)
    fun _ => ?_
  · obtain ⟨hold, rfl⟩ := ok_ite_eq_some.mp h
    simp [hold]
  simp only [tally_bind]
  refine tally_account_update _ 0
    (fun _ _ => settle_ok) (tally_raise _ _) fun _ => ?_
  refine tally_insertBudgetEvent (by simp) ?_
  by_cases ht : t = tenant <;> simp [ht, add_assoc]

theorem tally_reconcileExpired (call : Call) :
    Conserves tenant (reconcileExpired call) 0 := by
  simp only [reconcileExpired, tally_bind, tally_pure]
  refine tally_query fun v => tally_updateEach (fun _ _ _ _ => rfl) (fun _ => ?_) _
  refine tally_forM (fun _ => tally_releaseBudget ..) ?_ _
  refine tally_query fun v => tally_updateEach (fun _ _ _ _ => rfl) (fun _ => ?_) _
  rfl

theorem tally_updateBudget (input : EnterpriseBudgetUpdate) (call : Call) :
    Conserves tenant (updateBudget input call) 0 := by
  simp only [updateBudget, tally_bind]
  refine tally_ofExcept fun t _ => tally_ofExcept fun _ _ => ?_
  refine tally_statement fun v u _ h => ?_
  obtain ⟨_, -, rfl, hr, hs⟩ := upsertLimitExec_ok h
  rw [deltaBy_singleton, balance_account, hr, hs]
  cases v.lookup (.account t) with
  | none => simp
  | some => simp [balance_account]

theorem tally_adjustBudget (input : EnterpriseBudgetAdjustmentInput) (actorId : String)
    (call : Call) :
    Conserves tenant (adjustBudget input actorId call) 0 := by
  simp only [adjustBudget, tally_bind]
  refine tally_ofExcept fun t _ => tally_ofExcept fun _ _ => ?_
  refine tally_insertAccount fun _ => ?_
  refine tally_account_update 0 _ (fun _ _ => adjust_ok)
    (tally_raise _ _) fun _ => ?_
  simp only [Option.isNone_some, Bool.false_eq_true, if_false, tally_bind]
  refine tally_insertNew ?_
  rw [balance_event]
  by_cases ht : t = tenant <;> simp [ht]

variable (tenant) in
theorem tally_program (sha256 : String → String) (call : Call) :
    Conserves tenant (call.program sha256) 0 := by
  unfold Call.program
  cases call.operation with
  | beginRequest input => exact tally_beginRequest sha256 input call
  | beginAttempt input => exact tally_beginAttempt input call
  | finalizeAttempt attempt outcome => exact tally_finalizeAttempt attempt outcome call
  | finalizeRequestUsage request usage => exact tally_finalizeRequestUsage request usage call
  | renewLease request => exact tally_renewLease request call
  | reconcileExpired => exact tally_reconcileExpired call
  | updateBudget input => exact tally_updateBudget input call
  | adjustBudget input actorId => exact tally_adjustBudget input actorId call

end Balance

/-! ## Every run -/

theorem sumBy_balance_migrated (tenant : TenantKey) (created : ℤ) :
    sumBy (balance tenant) (migrated created) = 0 := by
  have haccount : accountOf (migrated created) tenant = { updatedAt := created } ∨
      accountOf (migrated created) tenant = { updatedAt := 0 } := by
    rw [accountOf, lookup_migrated_account]
    split
    · exact .inl rfl
    · exact .inr rfl
  rw [sumBy_balance]
  rcases haccount with h | h <;> rw [h] <;> rfl

/-- In every state that interleaved calls reach, committed or rolled back in any order, each
tenant's balances are the sums of its open reservations, of its settled reservations and
adjustments, and of its event log, and neither is negative. -/
theorem budget_balanced {sha256 : String → String} {created : ℤ} {s : LedgerServer}
    (h : Reachable sha256 created s) (tenant : TenantKey) : BudgetBalanced tenant s.db := by
  have hholds := Server.Run.holds
    (.of_tally _ 0 (tally_program _ _)) h
    (.initial (sumBy_balance_migrated tenant _))
  have hzero := hholds.db
  rw [sumBy_balance, Prod.ext_iff, Prod.ext_iff, Prod.ext_iff] at hzero
  obtain ⟨hreserved, hsettled, hreservedEvents, hsettledEvents⟩ := hzero
  simp only [Prod.fst_zero, Prod.snd_zero] at hreserved hsettled hreservedEvents hsettledEvents
  have hnonneg : 0 ≤ (accountOf s.db tenant).reservedMicrounits ∧
      0 ≤ (accountOf s.db tenant).settledMicrounits := by
    cases haccount : s.db.lookup (.account tenant) with
    | none => simp [accountOf, haccount]
    | some =>
      have hcheck := h.account_check haccount
      simp only [check, Bool.and_eq_true, decide_eq_true_eq] at hcheck
      simpa [accountOf, haccount] using ⟨hcheck.1.1.2, hcheck.1.2⟩
  exact ⟨by omega, by omega, by omega, by omega, hnonneg.1, hnonneg.2⟩

/-! A request whose one attempt reserves 1600 microunits and settles at 800, followed by an
adjustment of 500. -/

/-- A call at time `now` whose identifiers start with `id`. -/
def sampleCall (operation : Operation) (id : String) (now : ℤ) : Call where
  operation := operation
  instanceId := "ins_1"
  leaseTtl := 60
  now := now
  uuid := fun n => id ++ toString n

def sampleRequest (idempotencyKey : Option String) : BeginRequest where
  requestId := "req_1"
  principalId := "usr_1"
  protocol := "anthropic-messages"
  tenant := .local
  requestedModel := "claude-haiku-4"
  stream := false
  idempotencyKey := idempotencyKey
  requestFingerprint := String.ofList (List.replicate 64 '0')
  metadata := ⟨"/v1/messages", "business", false, "user", none, none, none, none, none, none, none⟩

def sampleEstimate (inputTokens : ℕ) : UsageEstimate :=
  chargeForModelWithPricing "claude-haiku-4" { inputTokens := .ofNat _ inputTokens } none

def sampleAttempt (attemptId : String) : BeginAttempt where
  request := ⟨"grq_r0", .local, "ins_1"⟩
  attemptId := attemptId
  providerId := "anthropic"
  resolvedModel := "claude-haiku-4"
  providerProtocol := "anthropic"
  estimate := sampleEstimate 2000

def sampleOutcome : LedgerOutcome :=
  .providerAttempt true 200 none (sampleEstimate 1000) "upstream-returned" 120

def sampleCalls : List Call :=
  [sampleCall (.beginRequest (sampleRequest none)) "r" 1,
   sampleCall (.beginAttempt (sampleAttempt "att_1")) "a" 2,
   sampleCall (.finalizeAttempt ⟨"att_1", "grq_r0", "brs_a0", .local, "ins_1"⟩ sampleOutcome) "f" 3,
   sampleCall (.adjustBudget
     ⟨"org_local", "prj_default", "env_default", 500, "invoice", "INV-1"⟩ "admin") "j" 4]

theorem budget_balanced_sample : ∃ s : LedgerServer, Reachable id 0 s ∧
    (accountOf s.db .local).settledMicrounits = 1300 ∧ BudgetBalanced .local s.db := by
  have hrun : (Server.sequential (Call.program id) sampleCalls (migrated 0)).map
      (fun db => (accountOf db .local).settledMicrounits) = some 1300 := by decide +kernel
  obtain ⟨_, hdb, hsettled⟩ := Option.map_eq_some_iff.mp hrun
  obtain ⟨s, hs, rfl, -⟩ := Server.exists_run_of_sequential hdb
  exact ⟨s, hs, hsettled, budget_balanced hs .local⟩

end RouteSmith.Model.Ledger
