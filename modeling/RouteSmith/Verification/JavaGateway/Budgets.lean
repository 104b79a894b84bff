import RouteSmith.Model.JavaGateway.Budget
import RouteSmith.Store.Logic
import Mathlib.Algebra.Order.Group.Int

/-! # The Java gateway's budgets

Under any interleaving of the budget service's calls the balances of an account are those of its
reservations, an admitted reservation stays within the limit it was admitted with, and a reservation
is closed once.
-/

namespace RouteSmith.Model.JavaGateway

open Store Store.Txn AList Option BudgetCall

/-! ## The sums -/

/-- Over the account's reservations in state `RESERVED`. -/
def openTokens (account : AccountKey) : ∀ k : Key, Row k → ℤ
  | .reservation _, row =>
    if row.account = account ∧ row.status = .reserved then row.reservedTokens else 0
  | _, _ => 0

/-- Over the account's reservations in state `SETTLED`. -/
def settledTokens (account : AccountKey) : ∀ k : Key, Row k → ℤ
  | .reservation _, row =>
    if row.account = account ∧ row.status = .settled then row.actualTokens.getD 0 else 0
  | _, _ => 0

def accountReserved (account : AccountKey) : ∀ k : Key, Row k → ℤ
  | .account key, row => if key = account then row.reservedTokens else 0
  | _, _ => 0

def accountConsumed (account : AccountKey) : ∀ k : Key, Row k → ℤ
  | .account key, row => if key = account then row.consumedTokens else 0
  | _, _ => 0

/-- What the two balances of an account are over its reservations, row by row. -/
def excess (account : AccountKey) (k : Key) (row : Row k) : ℤ × ℤ :=
  (accountReserved account k row - openTokens account k row,
   accountConsumed account k row - settledTokens account k row)

/-- The balances of an account, zero where there is no account yet. -/
def accountOf (db : Tables) (account : AccountKey) : BudgetAccount :=
  (db.lookup (Key.account account)).getD (⟨0, 0, 0, 0⟩ : BudgetAccount)

/-- The balances of an account and its reservations agree. -/
structure Balanced (account : AccountKey) (db : Tables) : Prop where
  reserved_eq : (accountOf db account).reservedTokens = sumBy (openTokens account) db
  consumed_eq : (accountOf db account).consumedTokens = sumBy (settledTokens account) db
  reserved_nonneg : 0 ≤ (accountOf db account).reservedTokens
  consumed_nonneg : 0 ≤ (accountOf db account).consumedTokens

theorem sumBy_accountReserved (account : AccountKey) (db : Tables) :
    sumBy (accountReserved account) db = (accountOf db account).reservedTokens := by
  have hf : ∀ k row, k ≠ .account account → accountReserved account k row = 0 := by
    intro k _ hk
    cases k <;> simp_all [accountReserved]
  rw [sumBy_eq_measure hf, accountOf]
  cases db.lookup (.account account) <;> simp [accountReserved]

theorem sumBy_accountConsumed (account : AccountKey) (db : Tables) :
    sumBy (accountConsumed account) db = (accountOf db account).consumedTokens := by
  have hf : ∀ k row, k ≠ .account account → accountConsumed account k row = 0 := by
    intro k _ hk
    cases k <;> simp_all [accountConsumed]
  rw [sumBy_eq_measure hf, accountOf]
  cases db.lookup (.account account) <;> simp [accountConsumed]

theorem sumBy_excess (account : AccountKey) (db : Tables) : sumBy (excess account) db =
      ((accountOf db account).reservedTokens - sumBy (openTokens account) db,
       (accountOf db account).consumedTokens - sumBy (settledTokens account) db) := by
  unfold excess
  simp only [sumBy_prodMk, sumBy_sub, sumBy_accountReserved, sumBy_accountConsumed]

section Rows

variable (account : AccountKey)

theorem excess_account (key : AccountKey) (row : BudgetAccount) :
    excess account (.account key) row =
      if key = account then (row.reservedTokens, row.consumedTokens) else 0 := by
  by_cases h : key = account <;>
    simp [excess, accountReserved, accountConsumed, openTokens, settledTokens, h]

theorem excess_reservation (reservationId : String) (row : ReservationRow) :
    excess account (.reservation reservationId) row = if row.account = account then
      (-(if row.status = .reserved then row.reservedTokens else 0),
        -(if row.status = .settled then row.actualTokens.getD 0 else 0)) else 0 := by
  by_cases h : row.account = account <;>
    simp [excess, accountReserved, accountConsumed, openTokens, settledTokens, h]

/-- Reserving: what the account gains the new reservation holds. -/
theorem excess_reserve (key : AccountKey) (old new : BudgetAccount) (reservationId : String)
    (row : ReservationRow)
    (hreserved : new.reservedTokens = old.reservedTokens + row.reservedTokens)
    (hconsumed : new.consumedTokens = old.consumedTokens) (haccount : row.account = key)
    (hstatus : row.status = .reserved) :
    excess account (.account key) new - excess account (.account key) old +
      excess account (.reservation reservationId) row = 0 := by
  rw [excess_account, excess_account, excess_reservation, haccount]
  by_cases h : key = account <;> simp [h, hreserved, hconsumed, hstatus]

/-- Closing: what the account loses the reservation held, and what it consumes is charged. -/
theorem excess_close (old new : BudgetAccount) (reservationId : String) (row row' : ReservationRow)
    (charged : ℤ) (hreserved : new.reservedTokens = old.reservedTokens - row.reservedTokens)
    (hconsumed : new.consumedTokens = old.consumedTokens + charged)
    (hstatus : row.status = .reserved) (haccount : row'.account = row.account)
    (hactual : row'.actualTokens = some charged)
    (hstatus' : row'.status = .settled ∨ row'.status = .released ∧ charged = 0) :
    excess account (.account row.account) new - excess account (.account row.account) old +
      (excess account (.reservation reservationId) row' -
        excess account (.reservation reservationId) row) = 0 := by
  rw [excess_account, excess_account, excess_reservation, excess_reservation, haccount]
  by_cases h : row.account = account
  · rcases hstatus' with hs | ⟨hs, rfl⟩ <;>
      simp [h, hreserved, hconsumed, hstatus, hactual, hs]
  · simp [h]

end Rows

/-! ## One transaction -/

/-- What a transaction may commit: the balances move with the reservations, and a reservation that
is closed stays as it is. -/
structure Sound (w db : Tables) : Prop where
  balanced : ∀ account, deltaBy (excess account) w db = 0
  closed : ∀ reservationId old row, db.lookup (.reservation reservationId) = some old →
    old.status ≠ .reserved → w.lookup (.reservation reservationId) = some row → row = old

/-- A transaction that has only looked so far: what it holds is as committed, but for accounts it
has opened. -/
structure Looking (w db : Tables) : Prop where
  balanced : ∀ account, deltaBy (excess account) w db = 0
  reservations : ∀ reservationId row, w.lookup (.reservation reservationId) = some row →
    db.lookup (.reservation reservationId) = some row

theorem Looking.empty (db : Tables) : Looking ∅ db := ⟨fun _ => deltaBy_empty _ db, by simp⟩

variable {db w : Tables} {h2 : Bool} {s : BudgetServer}

theorem Looking.sound (h : Looking w db) : Sound w db := by
  refine ⟨h.balanced, fun _ _ row hold _ hrow => ?_⟩
  exact some.inj ((h.reservations _ row hrow).symm.trans hold)

variable {db' : Tables} {I : Tables → Prop} {reservationId : String} {row : BudgetAccount}

theorem Looking.evolves (h : Looking w db) (hdb : Evolves w db db') : Looking w db' := by
  refine ⟨fun _ => (hdb.deltaBy_eq _).trans (h.balanced _), fun id row hrow => ?_⟩
  rw [hdb.lookup_eq _ (lookup_isSome.mp (by simp [hrow]))]
  exact h.reservations id row hrow

theorem Looking.lock (h : Looking w db) {k : Key} {row : Row k}
    (hrow : (w ∪ db).lookup k = some row) (hdb : Evolves (singleton k row ∪ w) db db') :
    Looking (singleton k row ∪ w) db' := by
  refine ⟨fun _ => ?_, fun id row' hrow' => ?_⟩
  · rw [hdb.deltaBy_put, hrow, h.balanced]
    simp
  · rw [hdb.lookup_eq _ (lookup_isSome.mp (by simp [hrow']))]
    rcases lookup_eq_or _ w hrow' with hrow' | ⟨-, hrow'⟩
    · obtain ⟨rfl, rfl⟩ := lookup_singleton hrow'
      rcases lookup_eq_or w db hrow with hw | ⟨-, hw⟩
      · exact h.reservations id row hw
      · exact hw
    · exact h.reservations id row' hrow'

section Transactions

variable {I : Tables → Prop} {w db : Tables}

theorem wp_insertAccount (h : Looking w db) (key : AccountKey) (tokenLimit now : ℤ) :
    (insertAccount key tokenLimit now).Wp I (fun _ => Looking) (fun _ _ _ => True) w db := by
  simp only [insertAccount, wp_bind, wp_pure]
  refine wp_insertIgnore (fun _ _ => trivial) (fun _ _ _ => h.evolves)
    fun hnone _ _ hdb => ⟨fun _ => ?_, fun id row hrow => ?_⟩
  · rw [hdb.deltaBy_put, h.balanced, hnone, excess_account]
    simp
  · rcases lookup_eq_or _ w hrow with hrow | ⟨-, hrow⟩
    · obtain ⟨hk, -⟩ := lookup_singleton hrow
      cases hk
    · rw [hdb.lookup_eq _ (mem_union.mpr (.inr (lookup_isSome.mp (by simp [hrow]))))]
      exact h.reservations id row hrow

theorem wp_ensureAccount (h2 : Bool) (h : Looking w db) (key : AccountKey) (tokenLimit now : ℤ) :
    (ensureAccount h2 key tokenLimit now).Wp I (fun _ => Looking) (fun _ _ _ => True) w db := by
  unfold ensureAccount
  split
  · simp only [wp_bind]
    refine wp_query fun _ _ hdb => ?_
    split
    · exact (wp_pure _ _).mpr (h.evolves hdb)
    · exact wp_insertAccount (h.evolves hdb) key _ now
  · exact wp_insertAccount h key _ now

theorem wp_lockAccount (h : Looking w db) (key : AccountKey) {Q : Post Row BudgetAccount}
    (hQ : ∀ account w' db', Looking w' db' → w' = singleton (.account key) account ∪ w →
      Q account w' db') :
    (lockAccount key).Wp I Q (fun _ _ _ => True) w db := by
  simp only [lockAccount, wp_bind]
  refine wp_selectForUpdate (fun _ _ _ _ => (wp_raise _ _).mpr trivial)
    fun _ haccount db' _ hdb => ?_
  exact (wp_pure _ _).mpr (hQ _ _ db' (h.lock haccount hdb) rfl)

/-- What has been established when a reservation is made: its account is within the limit, and its
row is the only one among the reservations that is new. -/
structure Reserved (input : ReserveInput) (moment : Moment) (reservation : Reservation)
    (w db : Tables) : Prop where
  sound : Sound w db
  admitted : ∃ account, w.lookup (.account (input.account moment)) = some account ∧
    account.reservedTokens + account.consumedTokens ≤ input.tokenLimit
  id_eq : reservation.reservationId = moment.uuid
  fresh : db.lookup (.reservation moment.uuid) = none
  opened : ∃ row, w.lookup (.reservation moment.uuid) = some row ∧ row.status = .reserved
  others : ∀ id row, w.lookup (.reservation id) = some row →
    id = moment.uuid ∨ db.lookup (.reservation id) = some row

theorem wp_reserve (h2 : Bool) (input : ReserveInput) (moment : Moment) (db : Tables) :
    (reserve h2 input moment).Wp I (Reserved input moment) (fun _ _ _ => True) ∅ db := by
  simp only [reserve, wp_bind]
  refine (wp_ensureAccount h2 (.empty db) ..).mono fun _ _ _ hlooking => ?_
  refine wp_lockAccount hlooking _ fun account w₂ _ hlooking₂ hw₂ => ?_
  have hheld : w₂.lookup (.account (input.account moment)) = some account := by
    rw [hw₂, lookup_union, lookup_singleton_self]
    rfl
  split
  · exact (wp_raise _ _).mpr trivial
  simp only [wp_bind, wp_pure]
  refine wp_update_held hheld rfl (fun _ => trivial) fun _ _ hdb₃ => ?_
  refine wp_insertNew (fun _ => trivial) fun hnew db₄ _ hdb₄ => ?_
  have hfresh : db₄.lookup (.reservation moment.uuid) = none := by
    rw [hdb₄.lookup_eq _ (by simp)]
    exact (or_eq_none_iff.mp ((lookup_union ..).symm.trans hnew)).2
  have hothers : ∀ new account id row,
      (singleton (.reservation moment.uuid) new ∪
        (singleton (.account (input.account moment)) account ∪ w₂)).lookup
          (.reservation id) = some row →
        id = moment.uuid ∨ db₄.lookup (.reservation id) = some row := by
    intro _ account id row hrow
    rcases lookup_eq_or _ _ hrow with hrow' | ⟨-, hrow'⟩
    · obtain ⟨hk, -⟩ := lookup_singleton hrow'
      cases hk
      exact .inl rfl
    · have hlook : w₂.lookup (.reservation id) = some row := by
        rwa [lookup_union_right (by simp)] at hrow'
      have hmem : .reservation id ∈ w₂ := lookup_isSome.mp (by simp [hlook])
      rw [hdb₄.lookup_eq _ (by simp [hmem]), hdb₃.lookup_eq _ (by simp [hmem])]
      exact .inr (hlooking₂.reservations id row hlook)
  refine ⟨⟨fun key => ?_, fun id _ row hold _ hrow => ?_⟩, ?_, rfl, hfresh, ?_, hothers _ _⟩
  · rw [hdb₄.deltaBy_put, hnew, hdb₃.deltaBy_put_held hheld, hlooking₂.balanced, measure_none,
      sub_zero, zero_add]
    exact excess_reserve key _ _ _ _ _ rfl rfl rfl rfl
  · rcases hothers _ _ id row hrow with rfl | hrow
    · rw [hfresh] at hold
      cases hold
    · exact some.inj (hrow.symm.trans hold)
  · refine ⟨account.reserve input.tokenLimit (max 1 input.requestedTokens) moment.now, ?_, ?_⟩
    · rw [lookup_union_right (by simp), lookup_union, lookup_singleton_self]
      rfl
    · dsimp only [BudgetAccount.reserve]
      omega
  · rw [lookup_union, lookup_singleton_self]
    exact ⟨_, rfl, rfl⟩

/-- What has been established when a reservation is closed: one that was open has moved, and no
other; for one that was not open nothing has changed. -/
structure Closed (reservationId : String) (charged now : ℤ) (status : ReservationStatus)
    (w db : Tables) : Prop where
  sound : Sound w db
  cases : ∃ current, db.lookup (.reservation reservationId) = some current ∧
    ((current.status = .reserved ∧
        w.lookup (.reservation reservationId) = some (current.close charged now status)) ∨
      (current.status ≠ .reserved ∧ ∀ k row, w.lookup k = some row → db.lookup k = some row))
  others : ∀ id, id ≠ reservationId → w.lookup (.reservation id) = none

theorem wp_close (reservationId : String) (charged now : ℤ) (status : ReservationStatus)
    (hstatus : status = .settled ∨ status = .released ∧ charged = 0) (db : Tables) :
    (close reservationId charged now status).Wp I (fun _ => Closed reservationId charged now status)
      (fun _ _ _ => True) ∅ db := by
  simp only [close, lockReservation, wp_bind]
  refine wp_selectForUpdate (fun _ _ _ _ => (wp_raise _ _).mpr trivial)
    fun current hcurrent _ _ hdb₁ => (wp_pure _ _).mpr ?_
  have hlooking := (Looking.empty db).lock hcurrent hdb₁
  rw [union_empty] at hlooking
  have hcommitted := (hdb₁.lookup_eq _ (by simp)).trans hcurrent
  split
  next hclosed =>
    refine (wp_pure _ _).mpr ⟨hlooking.sound, ⟨current, hcommitted, .inr ⟨hclosed, ?_⟩⟩, ?_⟩
    · intro k _ hrow
      obtain ⟨rfl, rfl⟩ := lookup_singleton hrow
      exact hcommitted
    · intro id hid
      exact lookup_eq_none.mpr (by simp [hid])
  rename_i hopen
  rw [not_not] at hopen
  simp only [wp_bind, wp_pure]
  refine wp_lockAccount hlooking _ fun account w₂ _ hlooking₂ hw₂ => ?_
  have hheld : w₂.lookup (.account current.account) = some account := by
    rw [hw₂, lookup_union, lookup_singleton_self]
    rfl
  have hheld' : w₂.lookup (.reservation reservationId) = some current := by
    rw [hw₂, lookup_union_right (by simp), lookup_singleton_self]
  refine wp_update_held hheld rfl (fun _ => trivial) fun _ _ hdb₃ => ?_
  have hheld₃ : (singleton (.account current.account)
      (account.close current.reservedTokens charged now) ∪ w₂).lookup
        (.reservation reservationId) = some current :=
    (lookup_union_right (by simp)).trans hheld'
  refine wp_update_held hheld₃ rfl (fun _ => trivial) fun db₄ _ hdb₄ => ?_
  have hcommitted₄ : db₄.lookup (.reservation reservationId) = some current := by
    have hmem : .reservation reservationId ∈ w₂ := lookup_isSome.mp (by simp [hheld'])
    rw [hdb₄.lookup_eq _ (by simp), hdb₃.lookup_eq _ (by simp [hmem])]
    exact hlooking₂.reservations _ _ hheld'
  have hothers : ∀ closed account id, id ≠ reservationId →
      (singleton (.reservation reservationId) closed ∪
        (singleton (.account current.account) account ∪ w₂)).lookup (.reservation id) =
          none := by
    intro _ _ id hid
    rw [lookup_union_right (by simp [hid]), lookup_union_right (by simp), hw₂,
      lookup_union_right (by simp)]
    exact lookup_eq_none.mpr (by simp [hid])
  refine ⟨⟨fun key => ?_, fun id _ _ hold hclosed hrow => ?_⟩,
    ⟨current, hcommitted₄, .inl ⟨hopen, ?_⟩⟩, hothers _ _⟩
  · rw [hdb₄.deltaBy_put_held hheld₃, hdb₃.deltaBy_put_held hheld, hlooking₂.balanced, zero_add]
    exact excess_close key _ _ _ _ _ _ rfl rfl hopen rfl rfl hstatus
  · by_cases hid : id = reservationId
    · subst hid
      rw [hcommitted₄] at hold
      cases hold
      exact absurd hopen hclosed
    · rw [hothers _ _ id hid] at hrow
      cases hrow
  · rw [lookup_union, lookup_singleton_self]
    rfl

end Transactions

/-! ## Every call -/

/-- What a call has established when it commits. -/
structure CallPost (call : BudgetCall) (w db : Tables) : Prop where
  sound : Sound w db
  admitted : ∀ input, call.operation = .reserve input →
    ∃ account, w.lookup (.account (input.account call.moment)) = some account ∧
      account.reservedTokens + account.consumedTokens ≤ input.tokenLimit
  idle : ∀ reservationId row, call.closes = some reservationId →
    db.lookup (.reservation reservationId) = some row → row.status ≠ .reserved →
      ∀ k row, w.lookup k = some row → db.lookup k = some row

theorem wp_closing (call : BudgetCall) {charged : ℤ} {status : ReservationStatus}
    (hstatus : status = .settled ∨ status = .released ∧ charged = 0)
    (hcloses : call.closes = some reservationId) (hop : ∀ input, call.operation ≠ .reserve input)
    (db : Tables) :
    (close reservationId charged call.moment.now status).Wp I (fun _ => CallPost call)
      (fun _ _ _ => True) ∅ db := by
  refine (wp_close _ _ _ _ hstatus db).mono ?_
  rintro - w _ ⟨hsound, ⟨current, hcurrent, hcases⟩, -⟩
  refine ⟨hsound, fun _ h => absurd h (hop _), fun _ row hid hrow hstatus' => ?_⟩
  cases hcloses.symm.trans hid
  obtain rfl : current = row := some.inj (hcurrent.symm.trans hrow)
  rcases hcases with ⟨hopen, -⟩ | ⟨-, hsame⟩
  · exact absurd hopen hstatus'
  · exact hsame

theorem wp_program (h2 : Bool) (call : BudgetCall) (db : Tables) :
    (call.program h2).Wp I (fun _ => CallPost call) (fun _ _ _ => True) ∅ db := by
  obtain ⟨op, moment⟩ := call
  cases op with
  | reserve input =>
    simp only [program, wp_bind, wp_pure]
    refine (wp_reserve h2 _ _ db).mono
      fun _ w _ h => ⟨h.sound, fun _ hop => ?_, fun _ _ hcloses => by cases hcloses⟩
    cases hop
    exact h.admitted
  | settle reservationId actualTokens =>
    simp only [program, wp_bind, wp_pure]
    exact wp_closing ⟨.settle _ _, moment⟩ (.inl rfl) rfl (by simp) db
  | release reservationId =>
    simp only [program, wp_bind, wp_pure]
    exact wp_closing ⟨.release _, moment⟩ (.inr ⟨rfl, rfl⟩) rfl (by simp) db

/-- No account's balances are off its reservations. -/
def NoExcess (db : Tables) : Prop := ∀ account, sumBy (excess account) db = 0

abbrev Guards (h2 : Bool) := Server.SessionInvariant (BudgetCall.program h2) NoExcess
  (Server.Guarded NoExcess (fun call _ => CallPost call) fun _ _ _ _ => True)

theorem guards (h2 : Bool) : Guards h2 := by
  refine .of_wp (fun call db _ => wp_program h2 call db) fun _ _ w _ hdb hpost _ => ?_
  rw [sumBy_union, hdb, hpost.sound.balanced, add_zero]

/-! ## Balances are not negative -/

theorem BudgetAccount.check_iff :
    row.check ↔ 0 ≤ row.tokenLimit ∧ 0 ≤ row.reservedTokens ∧ 0 ≤ row.consumedTokens := by
  simp [check, and_assoc]

/-- The check on accounts, and that no reservation is empty. -/
def Checked : ∀ k : Key, Row k → Prop
  | .account _, row => row.check
  | .reservation _, row => 1 ≤ row.reservedTokens

/-- A write keeps the check: a row is written as it was read, or checked when it is written. -/
def KeepsCheck (_ : BudgetCall) (k : Key) (old : Option (Row k)) (row : Row k) : Prop :=
  (∀ o, old = some o → Checked k o) → Checked k row

theorem KeepsCheck.of_constraint {call : BudgetCall} {key : AccountKey} {old : Option BudgetAccount}
    {v : Tables} (h : constraint v (.account key) row = none) :
    KeepsCheck call (.account key) old row := by
  intro _
  simpa [constraint, Checked] using h

theorem respects_lockAccount (call : BudgetCall) (key : AccountKey) :
    (lockAccount key).Respects (KeepsCheck call) :=
  respects_found (respects_selectForUpdate fun row h => h row rfl) (respects_raise _) respects_pure

theorem respects_close (call : BudgetCall) (reservationId : String) (charged now : ℤ)
    (status : ReservationStatus) :
    (close reservationId charged now status).Respects (KeepsCheck call) := by
  refine respects_bind (respects_found (respects_selectForUpdate fun row h => h row rfl)
    (respects_raise _) respects_pure) fun _ => ?_
  split
  · exact respects_pure ()
  refine respects_bind (respects_lockAccount call _) fun _ => ?_
  refine respects_bind (respects_update fun _ _ _ _ => .of_constraint) fun _ => ?_
  refine respects_bind (respects_update fun _ old _ hrow _ hold => ?_) fun _ => respects_pure ()
  cases hrow
  exact hold old rfl

theorem respects_ensureAccount (call : BudgetCall) (h2 : Bool) (key : AccountKey)
    (tokenLimit now : ℤ) : (ensureAccount h2 key tokenLimit now).Respects (KeepsCheck call) := by
  have hinsert : (insertAccount key tokenLimit now).Respects (KeepsCheck call) :=
    respects_bind (respects_insertIgnore fun _ => .of_constraint) fun _ => respects_pure ()
  unfold ensureAccount
  split
  · refine respects_bind (respects_query _) fun _ => ?_
    split
    · exact respects_pure ()
    · exact hinsert
  · exact hinsert

theorem respects_program (h2 : Bool) (call : BudgetCall) :
    (call.program h2).Respects (KeepsCheck call) := by
  obtain ⟨op, _⟩ := call
  cases op with
  | reserve =>
    refine respects_bind (respects_bind (respects_ensureAccount _ h2 ..) fun _ =>
      respects_bind (respects_lockAccount _ _) fun _ => ?_) fun _ => respects_pure _
    dsimp only
    split
    · exact respects_raise _
    refine respects_bind (respects_update fun _ _ _ _ => .of_constraint) fun _ => ?_
    exact respects_bind (respects_insertNew fun _ _ _ => le_max_left 1 _) fun _ => respects_pure _
  | settle | release =>
    exact respects_bind (respects_close ..) fun _ => respects_pure _

section

variable (h : Server.Run (BudgetCall.program h2) (.initial ∅) s)

include h

theorem checked_of_run : ∀ k row, s.db.lookup k = some row → Checked k row := by
  have hsession : Server.SessionInvariant (program h2) (fun _ => True)
      (Server.Traced KeepsCheck) :=
    .of_respects (fun _ _ _ _ _ hoa hab ho => hab fun _ h => by cases h; exact hoa ho)
      (respects_program h2)
  exact Server.Run.row_invariant (P := Checked) hsession (fun _ _ _ _ hkeeps => hkeeps)
    (by simp) h

/-! ## Every run -/

theorem balanced_of_run (account : AccountKey) : Balanced account s.db := by
  have hdb := (Server.Run.holds (guards h2) h (.initial fun _ => sumBy_empty _)).db account
  rw [sumBy_excess, Prod.mk_eq_zero] at hdb
  have hcheck : 0 ≤ (accountOf s.db account).reservedTokens ∧
      0 ≤ (accountOf s.db account).consumedTokens := by
    rw [accountOf]
    cases haccount : s.db.lookup (.account account) with
    | none => simp
    | some row =>
      exact (BudgetAccount.check_iff.mp (checked_of_run h _ row haccount)).2
  exact ⟨by omega, by omega, hcheck.1, hcheck.2⟩

theorem closed_stable {s' : BudgetServer} (hrun : Server.Run (program h2) s s')
    {row : ReservationRow} (hrow : s.db.lookup (.reservation reservationId) = some row)
    (hclosed : row.status ≠ .reserved) : s'.db.lookup (.reservation reservationId) = some row := by
  induction hrun with
  | refl => exact hrow
  | @tail s₁ s₂ hrun hstep ih =>
    obtain ⟨i, hstep⟩ := hstep
    rcases hstep.db_eq_or_commit with hdb | ⟨_, a, w, hrunning, -, hdb⟩
    · rw [hdb]
      exact ih
    have hholds := Server.Run.holds (guards h2) (h.trans hrun) (.initial fun _ => sumBy_empty _)
    have hpost := (wp_pure a _).mp
      (hholds.session i _ _ _ hrunning _ hholds.db (.refl w _))
    rw [hdb, lookup_union]
    cases hw : w.lookup (.reservation reservationId) with
    | none => exact ih
    | some row' => exact congrArg some (hpost.sound.closed _ row row' ih hclosed hw)

end

/-- Under any interleaving of calls, down to their single statements: the balances of every account
are those of its reservations, and not negative; a `reserve` that succeeds leaves its account within
the limit passed to it; a reservation that has been settled or released never changes again, and no
further `settle` or `release` of it changes any row. -/
theorem budgets_hold {h2 : Bool} {s : BudgetServer}
    (h : Server.Run (BudgetCall.program h2) (.initial ∅) s) :
    (∀ account, Balanced account s.db) ∧
    (∀ i s' call reply, Server.Step (BudgetCall.program h2) i s s' →
      s.calls i ≠ .returned call (.ok reply) → s'.calls i = .returned call (.ok reply) →
      (∀ input, call.operation = .reserve input →
        ∃ account, s'.db.lookup (.account (input.account call.moment)) = some account ∧
          account.reservedTokens + account.consumedTokens ≤ input.tokenLimit) ∧
      (∀ reservationId row, call.closes = some reservationId →
        s.db.lookup (.reservation reservationId) = some row → row.status ≠ .reserved →
          ∀ k, s'.db.lookup k = s.db.lookup k)) ∧
    (∀ s' reservationId row, Server.Run (BudgetCall.program h2) s s' →
      s.db.lookup (.reservation reservationId) = some row → row.status ≠ .reserved →
        s'.db.lookup (.reservation reservationId) = some row) := by
  refine ⟨balanced_of_run h, fun i _ _ _ hstep hne hreturned => ?_,
    fun _ _ _ hrun hrow hclosed => closed_stable h hrun hrow hclosed⟩
  have hholds := Server.Run.holds (guards h2) h (.initial fun _ => sumBy_empty _)
  rcases hstep.guarded_return hholds hreturned hne with ⟨_, w, -, hdb, hpost⟩ | ⟨_, _, he, -⟩
  · refine ⟨fun _ hop => ?_, fun _ _ hcloses hrow hclosed k => ?_⟩
    · obtain ⟨account, haccount, hle⟩ := hpost.admitted _ hop
      refine ⟨account, ?_, hle⟩
      rw [hdb, lookup_union, haccount]
      rfl
    · rw [hdb, lookup_union]
      cases hw : w.lookup k with
      | none => rfl
      | some row' => exact (hpost.idle _ _ hcloses hrow hclosed k row' hw).symm
  · cases he

def sampleReserve (requestedTokens : ℤ) (moment : Moment) : BudgetCall :=
  ⟨.reserve ⟨"req_1", "default", "key_1", 500, requestedTokens⟩, moment⟩

/-- A settlement above the reservation, and a release of what has been settled already. -/
def sampleBudgetCalls : List BudgetCall :=
  [sampleReserve 100 ⟨"2026-01", 1, "r1"⟩,
   sampleReserve 300 ⟨"2026-01", 2, "r2"⟩,
   ⟨.settle "r1" 120, ⟨"2026-01", 3, ""⟩⟩,
   ⟨.release "r1", ⟨"2026-02", 4, ""⟩⟩]

def sampleAccount : AccountKey := ⟨"default", "key_1", "2026-01"⟩

theorem sample_budgets_hold : ∃ s : BudgetServer,
    Server.Run (BudgetCall.program false) (.initial ∅) s ∧
      (accountOf s.db sampleAccount).reservedTokens = 300 ∧
      (accountOf s.db sampleAccount).consumedTokens = 120 ∧ Balanced sampleAccount s.db ∧
      ∀ s', Server.Run (BudgetCall.program false) s s' →
        (s'.db.lookup (.reservation "r1")).map (·.status) = some .settled := by
  have hrun : (Server.sequential (program false) sampleBudgetCalls ∅).map (fun db =>
      ((accountOf db sampleAccount).reservedTokens, (accountOf db sampleAccount).consumedTokens,
        (db.lookup (.reservation "r1")).map (·.status))) =
      some (300, 120, some .settled) := by decide
  obtain ⟨_, hdb, hvalues⟩ := map_eq_some_iff.mp hrun
  simp only [Prod.mk.injEq, map_eq_some_iff] at hvalues
  obtain ⟨hreserved, hconsumed, row, hrow, hstatus⟩ := hvalues
  obtain ⟨s, hs, rfl, -⟩ := Server.exists_run_of_sequential hdb
  obtain ⟨hbalanced, -, hclosed⟩ := budgets_hold hs
  refine ⟨s, hs, hreserved, hconsumed, hbalanced _, fun s' hs' => ?_⟩
  rw [hclosed s' "r1" row hs' hrow (by simp [hstatus]), map_some, hstatus]

/-! ## Calls one after the other -/

/-- Tables that calls made one after the other lead to. -/
def Reached (h2 : Bool) (budgets : Tables) : Prop :=
  ∃ (s : BudgetServer) (n : ℕ), Server.Run (BudgetCall.program h2) (.initial ∅) s ∧ s.Quiet ∧
    (∀ j, n ≤ j → s.calls j = .idle) ∧ s.db = budgets

theorem Reached.empty (h2 : Bool) : Reached h2 ∅ :=
  ⟨.initial ∅, 0, .refl, nofun, fun _ _ => rfl, rfl⟩

section Reached

variable {h2 : Bool} {budgets w : Tables}

section

variable (h : Reached h2 budgets)

include h

theorem Reached.commit (call : BudgetCall) {α : Type} {t : Txn Row Throwable α}
    {reply : α → Option Reservation} (hprogram : call.program h2 = t >>= fun a => pure (reply a))
    {a : α} (hrun : t.run budgets ∅ = .ok (a, w)) : Reached h2 (w ∪ budgets) := by
  have hrun : (call.program h2).run budgets ∅ = .ok (reply a, w) := by
    simp only [hprogram, run_bind, hrun, run_pure]
  obtain ⟨s, n, hs, hquiet, hidle, rfl⟩ := h
  obtain ⟨_, s₂, hs₁, hstep, -, -, hreturned, hdb, hothers⟩ :=
    hquiet.exists_commit (hidle n le_rfl) hrun
  refine ⟨s₂, n + 1, (hs.trans hs₁).tail ⟨n, hstep⟩, fun j op t w' hj => ?_, fun j hj => ?_, hdb⟩
  · by_cases hjn : j = n
    · rw [hjn, hreturned] at hj
      cases hj
    · exact hquiet j op t w' (hothers j hjn ▸ hj)
  · rw [hothers j (by omega)]
    exact hidle j (by omega)

theorem Reached.reserve {input : ReserveInput} {moment : Moment} {reservation : Reservation}
    (hrun : (reserve h2 input moment).run budgets ∅ = .ok (reservation, w)) :
    Reached h2 (w ∪ budgets) ∧ Reserved input moment reservation w budgets :=
  ⟨h.commit ⟨.reserve input, moment⟩ rfl hrun,
    (wp_reserve (I := fun _ => True) h2 input moment budgets).of_run trivial hrun⟩

variable {reservationId : String}

theorem Reached.settle {actualTokens now : ℤ}
    (hrun : (settle reservationId actualTokens now).run budgets ∅ = .ok ((), w)) :
    Reached h2 (w ∪ budgets) ∧ Closed reservationId (max 0 actualTokens) now .settled w budgets :=
  ⟨h.commit ⟨.settle reservationId actualTokens, ⟨"", now, ""⟩⟩ rfl hrun,
    (wp_close (I := fun _ => True) _ _ _ _ (.inl rfl) budgets).of_run trivial hrun⟩

theorem Reached.release {now : ℤ} (hrun : (release reservationId now).run budgets ∅ = .ok ((), w)) :
    Reached h2 (w ∪ budgets) ∧ Closed reservationId 0 now .released w budgets :=
  ⟨h.commit ⟨.release reservationId, ⟨"", now, ""⟩⟩ rfl hrun,
    (wp_close (I := fun _ => True) _ _ _ _ (.inr ⟨rfl, rfl⟩) budgets).of_run trivial hrun⟩

/-- The account of an open reservation is there, and holds at least the tokens reserved. -/
theorem Reached.account_of_open {row : ReservationRow}
    (hrow : budgets.lookup (.reservation reservationId) = some row)
    (hopen : row.status = .reserved) :
    ∃ account, budgets.lookup (.account row.account) = some account ∧ account.check ∧
      row.reservedTokens ≤ account.reservedTokens := by
  obtain ⟨s, -, hs, -, -, rfl⟩ := h
  have hnonneg : ∀ k row', s.db.lookup k = some row' → 0 ≤ openTokens row.account k row' := by
    intro k row' hrow'
    cases k with
    | account => rfl
    | reservation =>
      have := checked_of_run hs _ row' hrow'
      simp only [Checked, openTokens] at this ⊢
      split <;> omega
  have hle := le_sumBy hnonneg hrow
  have hbalanced := (balanced_of_run hs row.account).reserved_eq
  have hpositive := checked_of_run hs (.reservation _) row hrow
  simp only [openTokens, hopen, and_self, if_true, Checked] at hle hpositive
  rw [← hbalanced, accountOf] at hle
  cases haccount : s.db.lookup (.account row.account) with
  | none =>
    rw [haccount] at hle
    exact absurd hle (by simp only [getD_none]; omega)
  | some account =>
    rw [haccount] at hle
    exact ⟨account, rfl, checked_of_run hs _ _ haccount, hle⟩

theorem Reached.exists_close {row : ReservationRow}
    (hrow : budgets.lookup (.reservation reservationId) = some row) {charged : ℤ}
    (hcharged : 0 ≤ charged) (now : ℤ) (status : ReservationStatus) :
    ∃ w, (close reservationId charged now status).run budgets ∅ = .ok ((), w) := by
  have hview : (∅ ∪ budgets).lookup (.reservation reservationId) = some row := by
    rwa [empty_union]
  simp only [close, lockReservation, run_bind, run_selectForUpdate hview, run_pure]
  by_cases hopen : row.status = .reserved
  · obtain ⟨account, haccount, hcheck, hle⟩ := h.account_of_open hrow hopen
    have hheld : (singleton (.reservation reservationId) row ∪ ∅ ∪ budgets).lookup
        (.account row.account) = some account := by
      rwa [lookup_layer_of_notMem (by simp)]
    have hclosed : (account.close row.reservedTokens charged now).check := by
      rw [BudgetAccount.check_iff] at hcheck ⊢
      dsimp only [BudgetAccount.close]
      omega
    rw [if_neg (not_not.mpr hopen)]
    simp only [lockAccount, run_bind, run_selectForUpdate hheld, run_pure]
    rw [run_update (lookup_layer_singleton_self ..) rfl
      (by simp only [constraint, hclosed, if_true])]
    dsimp only
    have hcurrent : (singleton (.account row.account)
        (account.close row.reservedTokens charged now) ∪ (singleton (.account row.account)
          account ∪ (singleton (.reservation reservationId) row ∪ ∅)) ∪ budgets).lookup
            (.reservation reservationId) = some row := by
      rw [lookup_layer_of_notMem (by simp), lookup_layer_of_notMem (by simp),
        lookup_layer_singleton_self]
    rw [run_update hcurrent rfl
      (if_pos (by rw [ReservationRow.close, lookup_layer_singleton_self]; rfl))]
    exact ⟨_, rfl⟩
  · exact ⟨_, by rw [if_pos hopen, run_pure]⟩

end

end Reached

end RouteSmith.Model.JavaGateway
