import RouteSmith.Verification.Ledger.Conservation

/-! # Lifecycle of requests, attempts and reservations

Late finalization and lease reconciliation race for the same rows. Whoever comes first
closes a row, for good; an attempt and its reservation are closed together.
-/

namespace RouteSmith.Model.Ledger

open Store Store.Txn Option AList Call

/-! ## Attempts and their reservations -/

/-- Whether the reservation for an attempt is still open, if there is one. -/
def reservationOpen (v : Tables) (tenant : TenantKey) (attemptId : String) : Option Bool :=
  (v.lookup (Key.reservation tenant attemptId)).map (·.state == .reserved)

/-- Whether an attempt of the tenant is still open, if there is one. -/
def attemptOpen (v : Tables) (tenant : TenantKey) (attemptId : String) : Option Bool :=
  (v.lookup (Key.attempt attemptId)).bind fun row =>
    if row.record.tenant = tenant then some (row.record.state == .started) else none

/-- Attempts and reservations correspond, and are open or closed together. -/
def Paired (db : Tables) : Prop :=
  ∀ tenant attemptId, reservationOpen db tenant attemptId = attemptOpen db tenant attemptId

variable {v : Tables} {tenant : TenantKey} {attemptId : String}

theorem reservationOpen_congr {v' : Tables}
    (h : v'.lookup (.reservation tenant attemptId) = v.lookup (.reservation tenant attemptId)) :
    reservationOpen v' tenant attemptId = reservationOpen v tenant attemptId := by
  rw [reservationOpen, h, reservationOpen]

theorem attemptOpen_congr {v' : Tables}
    (h : v'.lookup (.attempt attemptId) = v.lookup (.attempt attemptId)) :
    attemptOpen v' tenant attemptId = attemptOpen v tenant attemptId := by
  rw [attemptOpen, h, attemptOpen]

theorem reservationOpen_of_lookup {row : ReservationRow}
    (h : v.lookup (.reservation tenant attemptId) = some row) :
    reservationOpen v tenant attemptId = some (row.state == .reserved) := by
  simp [reservationOpen, h]

theorem attemptOpen_of_lookup {row : AttemptRow} (h : v.lookup (.attempt attemptId) = some row)
    (tenant : TenantKey) : attemptOpen v tenant attemptId =
      if row.record.tenant = tenant then some (row.record.state == .started) else none := by
  simp [attemptOpen, h]

/-- What a running transaction keeps: apart from the attempts in `debts`, which it has
locked, what it sees is paired, and `Debt` says how the two sides of a debt stand. -/
structure PairedBut (Debt : Option Bool → Option Bool → Prop) (debts : List (TenantKey × String))
    (w db : Tables) : Prop where
  committed : Paired db
  locked : ∀ tenant attemptId, Key.reservation tenant attemptId ∈ w → Key.attempt attemptId ∈ w
  paired : ∀ tenant attemptId, (tenant, attemptId) ∉ debts →
    reservationOpen (w ∪ db) tenant attemptId = attemptOpen (w ∪ db) tenant attemptId
  owed : ∀ tenant attemptId, (tenant, attemptId) ∈ debts → Key.attempt attemptId ∈ w ∧
    Debt (reservationOpen (w ∪ db) tenant attemptId) (attemptOpen (w ∪ db) tenant attemptId)

section PairedBut

variable {Debt : Option Bool → Option Bool → Prop} {debts : List (TenantKey × String)}
  {w db : Tables}

theorem Paired.pairedBut (h : Paired db) : PairedBut Debt [] ∅ db where
  committed := h
  locked := by simp
  paired _ _ _ := by simpa using h _ _
  owed := by simp

theorem PairedBut.paired_union (h : PairedBut Debt [] w db) : Paired (w ∪ db) :=
  fun _ _ => h.paired _ _ (by simp)

variable {db' : Tables} {attemptId : String}

section

variable (h : PairedBut Debt debts w db)

include h

/-- Holding either row of a pair is enough to fix how both stand. -/
theorem PairedBut.view_eq (hdb' : Paired db') (ha : Evolves w db db') (tenant : TenantKey)
    (hheld : .attempt attemptId ∈ w) :
    reservationOpen (w ∪ db') tenant attemptId = reservationOpen (w ∪ db) tenant attemptId ∧
      attemptOpen (w ∪ db') tenant attemptId = attemptOpen (w ∪ db) tenant attemptId := by
  have hattempt : attemptOpen db' tenant attemptId = attemptOpen db tenant attemptId :=
    attemptOpen_congr (ha.lookup_eq _ hheld)
  constructor
  · by_cases hr : .reservation tenant attemptId ∈ w
    · apply reservationOpen_congr
      rw [lookup_union_left hr, lookup_union_left hr]
    · calc reservationOpen _ _ _
          = reservationOpen db' _ _ :=
            reservationOpen_congr (lookup_union_right hr)
        _ = reservationOpen db _ _ := by rw [hdb', hattempt, h.committed]
        _ = reservationOpen _ _ _ :=
            (reservationOpen_congr (lookup_union_right hr)).symm
  · apply attemptOpen_congr
    rw [lookup_union_left hheld, lookup_union_left hheld]

/-- Other transactions, which keep the committed rows paired, do not disturb it. -/
theorem PairedBut.frame (hdb' : Paired db') (ha : Evolves w db db') :
    PairedBut Debt debts w db' where
  committed := hdb'
  locked := h.locked
  paired tenant attemptId hp := by
    by_cases hheld : .attempt attemptId ∈ w
    · obtain ⟨hr, hat⟩ := h.view_eq hdb' ha _ hheld
      rw [hr, hat, h.paired _ _ hp]
    · have hr : .reservation tenant attemptId ∉ w := fun hr => hheld (h.locked _ _ hr)
      rw [reservationOpen_congr (lookup_union_right hr),
        attemptOpen_congr (lookup_union_right hheld), hdb']
  owed _ _ hp := by
    obtain ⟨hheld, howed⟩ := h.owed _ _ hp
    obtain ⟨hr, hat⟩ := h.view_eq hdb' ha _ hheld
    exact ⟨hheld, hr ▸ hat ▸ howed⟩

/-- Writes that leave every attempt's tenant and state as they were, and every reservation
alone, do not disturb it either. -/
theorem PairedBut.keep {u : Tables}
    (hreservation : ∀ tenant attemptId, .reservation tenant attemptId ∉ u)
    (hattempt : ∀ attemptId row, u.lookup (.attempt attemptId) = some row →
      ∃ old, (w ∪ db).lookup (.attempt attemptId) = some old ∧
        row.record.tenant = old.record.tenant ∧ row.record.state = old.record.state) :
    PairedBut Debt debts (u ∪ w) db := by
  have hr : ∀ tenant attemptId, reservationOpen ((u ∪ w) ∪ db) tenant attemptId =
      reservationOpen (w ∪ db) tenant attemptId :=
    fun _ _ => reservationOpen_congr (lookup_layer_of_notMem (hreservation _ _) _ _)
  have hat : ∀ tenant attemptId, attemptOpen ((u ∪ w) ∪ db) tenant attemptId =
      attemptOpen (w ∪ db) tenant attemptId := by
    intro tenant attemptId
    cases hu : u.lookup (.attempt attemptId) with
    | none => exact attemptOpen_congr (lookup_layer_of_notMem (lookup_eq_none.mp hu) _ _)
    | some row =>
      obtain ⟨_, hold, htenant, hstate⟩ := hattempt _ row hu
      have hrow : ((u ∪ w) ∪ db).lookup (.attempt attemptId) = some row := by
        rw [lookup_union, lookup_union, hu]
        rfl
      rw [attemptOpen_of_lookup hrow, attemptOpen_of_lookup hold, htenant, hstate]
  refine ⟨h.committed, fun tenant attemptId hk => ?_, fun _ _ hp => ?_,
    fun _ _ hp => ?_⟩
  · rcases mem_union.mp hk with hk | hk
    · exact absurd hk (hreservation _ _)
    · exact mem_union.mpr (.inr (h.locked _ _ hk))
  · rw [hr, hat, h.paired _ _ hp]
  · obtain ⟨hheld, howed⟩ := h.owed _ _ hp
    exact ⟨mem_union.mpr (.inr hheld), by rwa [hr, hat]⟩

/-- Neither an attempt nor a reservation. -/
def Unpaired : Key → Prop
  | .attempt _ => False
  | .reservation _ _ => False
  | _ => True

theorem PairedBut.put {k : Key} {row : Row k} (hk : Unpaired k) (hdb' : Paired db')
    (ha : Evolves (singleton k row ∪ w) db db') :
    PairedBut Debt debts (singleton k row ∪ w) db' := by
  refine (h.keep (fun _ _ hmem => ?_) fun _ _ hrow => ?_).frame hdb' ha
  · rw [mem_row_singleton] at hmem
    subst hmem
    exact hk
  · obtain ⟨rfl, -⟩ := lookup_singleton hrow
    exact hk.elim

/-- Writing an attempt row puts it in debt, however it now stands. -/
theorem PairedBut.putAttempt (row : AttemptRow)
    (hother : ∀ tenant, tenant ≠ row.record.tenant → attemptOpen (w ∪ db) tenant attemptId = none)
    (hfresh : ∀ tenant, (tenant, attemptId) ∉ debts)
    (hdebt : Debt (reservationOpen (w ∪ db) row.record.tenant attemptId)
      (some (row.record.state == .started))) :
    PairedBut Debt ((row.record.tenant, attemptId) :: debts)
      (singleton (.attempt attemptId) row ∪ w) db := by
  have hself := lookup_layer_singleton_self (.attempt attemptId) row w db
  have hr : ∀ t a, reservationOpen ((singleton (.attempt attemptId) row ∪ w) ∪ db) t a =
      reservationOpen (w ∪ db) t a :=
    fun _ _ => reservationOpen_congr (lookup_layer_of_notMem (by simp) _ _)
  have hat : ∀ t a, a ≠ attemptId →
      attemptOpen ((singleton (.attempt attemptId) row ∪ w) ∪ db) t a =
        attemptOpen (w ∪ db) t a :=
    fun _ _ hne => attemptOpen_congr (lookup_layer_of_notMem (by simpa using hne) _ _)
  refine ⟨h.committed, fun t a hk => ?_, fun t a hp => ?_, fun t a hp => ?_⟩
  · rcases mem_union.mp hk with hk | hk
    · simp at hk
    · exact mem_union.mpr (.inr (h.locked _ _ hk))
  · rw [List.mem_cons, not_or, Prod.mk.injEq, not_and] at hp
    by_cases ha : a = attemptId
    · subst ha
      have ht : t ≠ row.record.tenant := fun ht => hp.1 ht rfl
      rw [hr, h.paired _ _ hp.2, hother t ht, attemptOpen_of_lookup hself, if_neg ht.symm]
    · rw [hr, hat _ _ ha, h.paired _ _ hp.2]
  · rcases List.mem_cons.mp hp with hp | hp
    · obtain ⟨rfl, rfl⟩ := Prod.mk.injEq .. ▸ hp
      rw [hr, attemptOpen_of_lookup hself, if_pos rfl]
      exact ⟨by simp, hdebt⟩
    · obtain ⟨hheld, howed⟩ := h.owed _ _ hp
      have ha : a ≠ attemptId := fun ha => hfresh t (ha ▸ hp)
      rw [hr, hat _ _ ha]
      exact ⟨mem_union.mpr (.inr hheld), howed⟩

end

/-- Writing the reservation of an attempt in debt, open or closed as the attempt is, pays it. -/
theorem PairedBut.putReservation {tenant : TenantKey}
    (h : PairedBut Debt ((tenant, attemptId) :: debts) w db) {u : Tables} {row : ReservationRow}
    (hrow : u.lookup (.reservation tenant attemptId) = some row)
    (hu : ∀ k ∈ u, k = .reservation tenant attemptId ∨ Unpaired k)
    (hopen : attemptOpen (w ∪ db) tenant attemptId = some (row.state == .reserved))
    (hdebt : Debt (some (row.state == .reserved)) (some (row.state == .reserved))) :
    PairedBut Debt debts (u ∪ w) db := by
  have hself : ((u ∪ w) ∪ db).lookup (.reservation tenant attemptId) = some row := by
    rw [lookup_union, lookup_union, hrow]
    rfl
  have hheld := (h.owed _ _ List.mem_cons_self).1
  have hr : ∀ t a, (t, a) ≠ (tenant, attemptId) →
      reservationOpen ((u ∪ w) ∪ db) t a = reservationOpen (w ∪ db) t a := by
    refine fun t a hne => reservationOpen_congr (lookup_layer_of_notMem (fun hmem => ?_) _ _)
    rcases hu _ hmem with hk | hk
    · exact hne (by simpa using hk)
    · exact hk
  have hat : ∀ t a, attemptOpen ((u ∪ w) ∪ db) t a = attemptOpen (w ∪ db) t a := by
    refine fun t a => attemptOpen_congr (lookup_layer_of_notMem (fun hmem => ?_) _ _)
    rcases hu _ hmem with hk | hk
    · cases hk
    · exact hk
  refine ⟨h.committed, fun t a hk => mem_union.mpr (.inr ?_), fun t a hp => ?_, fun t a hp => ?_⟩
  · rcases mem_union.mp hk with hk | hk
    · rcases hu _ hk with hk | hk
      · cases hk
        exact hheld
      · exact hk.elim
    · exact h.locked _ _ hk
  · by_cases hself' : (t, a) = (tenant, attemptId)
    · cases hself'
      rw [reservationOpen_of_lookup hself, hat, hopen]
    · rw [hr _ _ hself', hat, h.paired _ _ (by simp [hp, hself'])]
  · obtain ⟨hheld', howed⟩ := h.owed t a (List.mem_cons_of_mem _ hp)
    refine ⟨mem_union.mpr (.inr hheld'), ?_⟩
    by_cases hself' : (t, a) = (tenant, attemptId)
    · cases hself'
      rwa [reservationOpen_of_lookup hself, hat, hopen]
    · rwa [hr _ _ hself', hat]

end PairedBut

/-! ## The transactions that open and close attempts -/

/-- A new attempt waits for its reservation. -/
def Opening (_reservation attempt : Option Bool) : Prop := attempt = some true

/-- A closed attempt waits for its reservation to be closed. -/
def Closing (reservation attempt : Option Bool) : Prop :=
  reservation.isSome ∧ attempt = some false

section Programs

variable {debts : List (TenantKey × String)} {w db : Tables}

/-- A transaction leaves what it sees paired, but for debts. -/
abbrev Pairs {α : Type} (Debt : Option Bool → Option Bool → Prop)
    (debts : List (TenantKey × String)) (t : LedgerTxn α) (w db : Tables) : Prop :=
  t.Wp Paired (fun _ => PairedBut Debt debts) (fun _ _ _ => True) w db

theorem wp_reserveBudget_paired (input : BeginAttempt) (call : Call)
    (h : PairedBut Opening [(input.request.tenant, input.attemptId)] w db) :
    Pairs Opening [] (reserveBudget input call) w db := by
  simp only [reserveBudget, wp_bind]
  refine wp_update (fun _ => trivial) (fun _ _ _ _ => (wp_raise _ _).mpr trivial)
    fun _ _ _ _ _ hdb₁ ha₁ => ?_
  have h₁ := h.put (by trivial) hdb₁ ha₁
  simp only [wp_bind, wp_pure]
  refine wp_statement (fun _ _ => trivial) fun u _ hu db₂ hdb₂ ha₂ => ?_
  obtain ⟨-, -, rfl⟩ := insertReservationExec_ok hu
  have hopen := (h₁.owed _ _ List.mem_cons_self).2
  refine wp_insertNew (fun _ => trivial) fun _ _ hdb₃ ha₃ =>
    (?_ : PairedBut Opening [] _ db₂).put (by trivial) hdb₃ ha₃
  refine (h₁.putReservation ((lookup_union_right ?_).trans (lookup_singleton_self _ _))
    (fun k hk => ?_) ?_ ?_).frame hdb₂ ha₂
  · simp
  · rcases mem_union.mp hk with hk | hk <;> rw [mem_row_singleton] at hk <;> subst hk
    · exact .inr trivial
    · exact .inl rfl
  · exact hopen
  · rfl

theorem wp_beginAttempt_paired (input : BeginAttempt) (call : Call) (hdb : Paired db) :
    Pairs Opening [] (beginAttempt input call) ∅ db := by
  simp only [beginAttempt, wp_bind]
  refine wp_statement (fun _ _ => trivial) fun u _ hu _ hdb₁ ha₁ => ?_
  rcases insertAttemptExec_ok hu with ⟨rfl, -⟩ | ⟨rfl, hnew, rfl⟩
  · exact (wp_raise _ _).mpr trivial
  have hnone : ∀ tenant, attemptOpen (∅ ∪ db) tenant input.attemptId = none := by
    intro tenant
    rw [attemptOpen, hnew]
    rfl
  have hput : PairedBut Opening [(input.request.tenant, input.attemptId)]
      (singleton (.attempt input.attemptId) (input.row call) ∪ ∅) db :=
    hdb.pairedBut.putAttempt (input.row call) (fun _ _ => hnone _) (by simp) rfl
  have h₁ := hput.frame hdb₁ ha₁
  simp only [Bool.not_true, Bool.false_eq_true, if_false, wp_bind]
  exact wp_insertIgnore (fun _ _ => trivial)
    (fun _ _ hdb₂ ha₂ => wp_reserveBudget_paired _ call (h₁.frame hdb₂ ha₂))
    fun _ _ hdb₂ ha₂ => wp_reserveBudget_paired _ call (h₁.put (by trivial) hdb₂ ha₂)

variable {attemptId : String} {tenant : TenantKey}

theorem PairedBut.closeAttempt (h : PairedBut Closing debts w db) {old : AttemptRow}
    (row : AttemptRow) (hold : (w ∪ db).lookup (.attempt attemptId) = some old)
    (hstarted : old.record.state = .started) (htenant : row.record.tenant = old.record.tenant)
    (hclosed : row.record.state ≠ .started) :
    PairedBut Closing ((row.record.tenant, attemptId) :: debts)
      (singleton (.attempt attemptId) row ∪ w) db := by
  have hview := attemptOpen_of_lookup hold
  simp only [hstarted] at hview
  -- an open attempt owes nothing, so its reservation is open as well
  have hfresh : ∀ tenant, (tenant, attemptId) ∉ debts := by
    intro _ hmem
    have hfalse := (h.owed _ _ hmem).2.2
    rw [hview] at hfalse
    split at hfalse <;> cases hfalse
  refine h.putAttempt row (fun _ hne => ?_) hfresh ⟨?_, ?_⟩
  · rw [hview, if_neg (htenant ▸ hne.symm)]
  · rw [h.paired _ _ (hfresh _), hview, if_pos htenant.symm]
    rfl
  · simpa using hclosed

theorem wp_bookClosing {change : AccountRow → Except AppError (Option AccountRow)} {e : AppError}
    {event : LedgerTxn Unit}
    (hevent : ∀ {w db}, PairedBut Closing debts w db → Pairs Closing debts event w db)
    (h : PairedBut Closing debts w db) :
    Pairs Closing debts (update constraint (.account tenant) change >>= fun account =>
      if account.isNone then raise e else event) w db := by
  rw [Pairs, wp_bind]
  exact wp_update (fun _ => trivial) (fun _ _ _ _ => (wp_raise _ _).mpr trivial)
    fun _ _ _ _ _ hdb' ha => hevent (h.put (by trivial) hdb' ha)

variable {attempt : LedgerAttempt} {eventId : String} {call : Call}

theorem wp_insertBudgetEvent_paired {eventType : EventType} {reservedDelta settledDelta : ℤ}
    {evidenceSource : String} {billingMode reason : Option String} {estimate : UsageEstimate}
    (h : PairedBut Closing debts w db) :
    Pairs Closing debts (insertBudgetEvent attempt eventId eventType reservedDelta settledDelta
      evidenceSource billingMode reason estimate) w db :=
  wp_insertNew (fun _ => trivial) fun _ _ hdb' ha => h.put (by trivial) hdb' ha

theorem PairedBut.closeReservation (h : PairedBut Closing ((tenant, attemptId) :: debts) w db)
    {row : ReservationRow} (hclosed : row.state ≠ .reserved) {db' : Tables} (hdb' : Paired db')
    (ha : Evolves (singleton (.reservation tenant attemptId) row ∪ w) db db') :
    PairedBut Closing debts (singleton (.reservation tenant attemptId) row ∪ w) db' := by
  have hfalse : (row.state == .reserved) = false := by simpa using hclosed
  refine (h.putReservation (lookup_singleton_self _ _)
    (fun k hk => .inl (by simpa using hk)) ?_ ?_).frame hdb' ha
  · rw [hfalse, (h.owed _ _ List.mem_cons_self).2.2]
  · rw [hfalse]
    exact ⟨rfl, rfl⟩

theorem wp_settleBudget_paired {outcome : LedgerOutcome}
    (h : PairedBut Closing ((attempt.tenant, attempt.attemptId) :: debts) w db) :
    Pairs Closing debts (settleBudget attempt outcome call) w db := by
  rw [Pairs, settleBudget, wp_bind]
  refine wp_update (fun _ => trivial) (fun _ _ _ _ => (wp_raise _ _).mpr trivial)
    fun _ row _ hrow _ hdb₁ ha₁ => ?_
  have hclosed : row.state ≠ .reserved := by
    obtain ⟨-, rfl⟩ := ok_ite_eq_some.mp hrow
    simp
  exact wp_bookClosing wp_insertBudgetEvent_paired (h.closeReservation hclosed hdb₁ ha₁)

theorem wp_finalizeAttempt_paired (attempt : LedgerAttempt) (outcome : LedgerOutcome) (call : Call)
    (hdb : Paired db) :
    Pairs Closing [] (finalizeAttempt attempt outcome call) ∅ db := by
  simp only [finalizeAttempt, updateTerminalAttempt, wp_bind, wp_pure]
  refine wp_update (fun _ => trivial) (fun _ _ hdb₁ ha₁ => ?_)
    fun old row hold hrow _ hdb₁ ha₁ => ?_
  · simp only [isSome_none, Bool.false_eq_true, if_false, wp_bind]
    refine wp_query fun _ hdb₂ ha₂ => ?_
    split
    · exact (wp_pure _ _).mpr hdb₂.pairedBut
    · exact (wp_raise _ _).mpr trivial
  · obtain ⟨hopen, rfl⟩ := ok_ite_eq_some.mp hrow
    obtain ⟨hscope, hstarted⟩ := old.record.openFor_iff.mp hopen
    simp only [isSome_some, if_true, wp_bind, wp_pure]
    refine wp_settleBudget_paired ?_
    rw [← (old.record.inScope_iff.mp hscope).1]
    let row := { old with record := old.record.finalize outcome call.now }
    exact (hdb.pairedBut.closeAttempt row hold hstarted rfl (by simp [row])).frame hdb₁ ha₁

theorem wp_releaseBudget_paired {now : ℤ}
    (h : PairedBut Closing ((tenant, attemptId) :: debts) w db) :
    Pairs Closing debts (releaseBudget attemptId tenant eventId now) w db := by
  rw [Pairs, releaseBudget, wp_bind]
  refine wp_update (fun _ => trivial) (fun hnone _ hdb₁ ha₁ => ?_)
    fun old row _ hrow _ hdb₁ ha₁ => ?_
  · -- the reservation exists, so an update that found nothing found it closed
    obtain ⟨-, hsome, hattempt⟩ := h.owed _ _ List.mem_cons_self
    obtain ⟨b, hb⟩ := isSome_iff_exists.mp hsome
    obtain ⟨old, hold, -⟩ := map_eq_some_iff.mp hb
    have hclosed : old.state ≠ .reserved := by
      intro hreserved
      simpa [hreserved] using hnone old hold
    have hpaid : PairedBut Closing debts w db := by
      refine ⟨h.committed, h.locked, fun t a hp => ?_, fun t a hp =>
        h.owed t a (List.mem_cons_of_mem _ hp)⟩
      by_cases hself : (t, a) = (tenant, attemptId)
      · cases hself
        rw [reservationOpen_of_lookup hold, hattempt]
        simpa using hclosed
      · exact h.paired t a (by simp [hself, hp])
    exact (wp_pure _ _).mpr (hpaid.frame hdb₁ ha₁)
  · have hclosed : row.state ≠ .reserved := by
      obtain ⟨-, rfl⟩ := ok_ite_eq_some.mp hrow
      simp
    exact wp_bookClosing wp_insertBudgetEvent_paired (h.closeReservation hclosed hdb₁ ha₁)

theorem PairedBut.congr {Debt : Option Bool → Option Bool → Prop}
    {debts' : List (TenantKey × String)} (h : PairedBut Debt debts w db)
    (hmem : ∀ p, p ∈ debts' ↔ p ∈ debts) : PairedBut Debt debts' w db where
  committed := h.committed
  locked := h.locked
  paired t a hp := h.paired t a (by rwa [hmem] at hp)
  owed t a hp := h.owed t a ((hmem _).mp hp)

/-- What reconciliation owes for an attempt it has closed. -/
def debtOf (e : (_ : String) × AttemptRow) : TenantKey × String := (e.2.record.tenant, e.1)

variable (db) in
theorem wp_reconcileExpired_paired (call : Call) :
    Pairs Closing [] (reconcileExpired call) ∅ db := by
  simp only [reconcileExpired, wp_bind, wp_pure]
  refine wp_query fun _ hdb₁ _ => ?_
  -- first every expired attempt goes into debt, then the loop pays the debts one by one
  refine (wp_updateEach (fun rows => PairedBut Closing (rows.map debtOf).reverse)
    (fun _ _ _ => trivial) (·.frame) ?_ _ hdb₁.pairedBut).mono ?_
  · intro _ w db _ old _ h hold hrow _ hdb' ha
    obtain ⟨hexpired, rfl⟩ := ok_ite_eq_some.mp hrow
    have hstarted := ((old.record.expired_iff _).mp hexpired).1
    simpa [debtOf] using (h.closeAttempt (old.markUnreconciled _) hold hstarted rfl
      (by simp)).frame hdb' ha
  intro _ w _ h
  refine (wp_forM (fun rest =>
      PairedBut Closing ((rest.map Prod.fst).map debtOf))
    wp_releaseBudget_paired (h.congr fun p => ?_)).mono fun _ w _ h => ?_
  · rw [List.zipIdx_map_fst, List.mem_reverse]
  refine wp_query fun _ hdb₂ ha₂ => ?_
  exact wp_updateEach (fun _ => PairedBut Closing []) (fun _ _ _ => trivial)
    (·.frame)
    (fun _ _ _ h _ _ _ hdb' ha => h.put (by trivial) hdb' ha) _ (h.frame hdb₂ ha₂)

/-- The other calls write no reservation, and to attempts only renewals. -/
theorem wp_program_keeps_paired {sha256 : String → String}
    (hbegin : ∀ input, call.operation ≠ .beginAttempt input)
    (hfinalize : ∀ attempt outcome, call.operation ≠ .finalizeAttempt attempt outcome)
    (hreconcile : call.operation ≠ .reconcileExpired) (hdb : Paired db) :
    Pairs Closing [] (call.program sha256) ∅ db := by
  refine (respects_program _ call).wp _ (fun _ _ _ => trivial)
    (fun {u w db _} h hu hdb' ha => ?_) hdb.pairedBut
  refine (h.keep (fun tenant attemptId hmem => ?_) fun attemptId _ hrow => ?_).frame hdb' ha
  · obtain ⟨_, hrow⟩ := isSome_iff_exists.mp (lookup_isSome.mpr hmem)
    have hstep := hu _ _ hrow
    cases hold : (w ∪ db).lookup (.reservation tenant attemptId) with
    | none =>
      obtain ⟨input, hop, -⟩ := hold ▸ hstep
      exact hbegin _ hop
    | some =>
      obtain ⟨-, hstep⟩ := hold ▸ hstep
      split at hstep
      · exact hfinalize _ _ ‹_›
      · exact hreconcile ‹_›
      · exact hstep
  · have hstep := hu _ _ hrow
    cases hold : (w ∪ db).lookup (.attempt attemptId) with
    | none =>
      obtain ⟨_, hop, -⟩ := hold ▸ hstep
      exact absurd hop (hbegin _)
    | some old =>
      rw [hold] at hstep
      simp only [RowStep, AttemptStep] at hstep
      split at hstep
      · exact absurd ‹_› (hfinalize _ _)
      · obtain ⟨-, rfl⟩ := hstep
        exact ⟨old, rfl, rfl, rfl⟩
      · exact absurd ‹_› hreconcile
      · exact hstep.elim

theorem wp_program_paired (sha256 : String → String) (call : Call) (hdb : Paired db) :
    Pairs Closing [] (call.program sha256) ∅ db := by
  by_cases hbegin : ∃ input, call.operation = .beginAttempt input
  · obtain ⟨_, hop⟩ := hbegin
    simp only [program, hop]
    refine (wp_beginAttempt_paired _ call hdb).mono fun _ w db h => ?_
    exact ⟨h.committed, h.locked, h.paired, nofun⟩
  by_cases hfinalize : ∃ attempt outcome, call.operation = .finalizeAttempt attempt outcome
  · obtain ⟨_, _, hop⟩ := hfinalize
    simp only [program, hop]
    exact wp_finalizeAttempt_paired _ _ call hdb
  by_cases hreconcile : call.operation = .reconcileExpired
  · simp only [program, hreconcile]
    exact wp_reconcileExpired_paired db call
  · exact wp_program_keeps_paired (fun _ hop => hbegin ⟨_, hop⟩)
      (fun _ _ hop => hfinalize ⟨_, _, hop⟩) hreconcile hdb

end Programs

/-! ## Every run -/

/-- An attempt is terminal exactly when its reservation is no longer reserved, and each of
the two rows has the other. -/
structure ClosedTogether (db : Tables) : Prop where
  reservation : ∀ {attemptId row}, db.lookup (Key.attempt attemptId) = some row →
    ∃ reservation, db.lookup (Key.reservation row.record.tenant attemptId) = some reservation ∧
      (row.record.state ≠ .started ↔ reservation.state ≠ .reserved)
  attempt : ∀ {tenant attemptId reservation},
    db.lookup (Key.reservation tenant attemptId) = some reservation →
    ∃ row, db.lookup (Key.attempt attemptId) = some row ∧ row.record.tenant = tenant ∧
      (row.record.state ≠ .started ↔ reservation.state ≠ .reserved)

theorem Paired.closedTogether {db : Tables} (h : Paired db) : ClosedTogether db where
  reservation {attemptId row} hrow := by
    have hpair := h row.record.tenant attemptId
    rw [attemptOpen_of_lookup hrow, if_pos rfl] at hpair
    obtain ⟨reservation, hreservation, hstate⟩ := map_eq_some_iff.mp hpair
    refine ⟨reservation, hreservation, not_congr ?_⟩
    rw [← beq_iff_eq, ← hstate, beq_iff_eq]
  attempt {tenant attemptId reservation} hreservation := by
    have hpair := h tenant attemptId
    rw [reservationOpen_of_lookup hreservation] at hpair
    obtain ⟨row, hrow, hstate⟩ := bind_eq_some_iff.mp hpair.symm
    split at hstate
    · refine ⟨row, hrow, ‹_›, not_congr ?_⟩
      rw [← beq_iff_eq, some.inj hstate, beq_iff_eq]
    · cases hstate

/-- Rows that have left their initial state stay as they left it. -/
structure KeepsClosed (db db' : Tables) : Prop where
  request : ∀ {ledgerId row}, db.lookup (Key.request ledgerId) = some row →
    row.record.state ≠ .started →
      ∃ row', db'.lookup (Key.request ledgerId) = some row' ∧ row'.record = row.record
  attempt : ∀ {attemptId row}, db.lookup (Key.attempt attemptId) = some row →
    row.record.state ≠ .started → db'.lookup (Key.attempt attemptId) = some row
  reservation : ∀ {tenant attemptId row},
    db.lookup (Key.reservation tenant attemptId) = some row → row.state ≠ .reserved →
      db'.lookup (Key.reservation tenant attemptId) = some row

/-- Rows that appear are in their initial state. -/
structure OpensInitial (db db' : Tables) : Prop where
  request : ∀ {ledgerId row}, db.lookup (Key.request ledgerId) = none →
    db'.lookup (Key.request ledgerId) = some row → row.record.state = .started
  attempt : ∀ {attemptId row}, db.lookup (Key.attempt attemptId) = none →
    db'.lookup (Key.attempt attemptId) = some row → row.record.state = .started
  reservation : ∀ {tenant attemptId row}, db.lookup (Key.reservation tenant attemptId) = none →
    db'.lookup (Key.reservation tenant attemptId) = some row → row.state = .reserved

/-- Rows of another tenant or lease owner do not change; a reservation belongs to the lease
owner of its attempt. -/
structure KeepsForeign (tenant : TenantKey) (leaseOwner : String) (db db' : Tables) : Prop where
  request : ∀ {ledgerId row}, db.lookup (Key.request ledgerId) = some row →
    row.record.tenant ≠ tenant ∨ row.record.leaseOwner ≠ leaseOwner →
      db'.lookup (Key.request ledgerId) = some row
  attempt : ∀ {attemptId row}, db.lookup (Key.attempt attemptId) = some row →
    row.record.tenant ≠ tenant ∨ row.record.leaseOwner ≠ leaseOwner →
      db'.lookup (Key.attempt attemptId) = some row
  reservation : ∀ {attemptId row}, db.lookup (Key.attempt attemptId) = some row →
    row.record.tenant ≠ tenant ∨ row.record.leaseOwner ≠ leaseOwner →
      ∀ t, db'.lookup (Key.reservation t attemptId) = db.lookup (Key.reservation t attemptId)

/-- The tenant and the lease owner that an operation carries. -/
def Call.scope (call : Call) : Option (TenantKey × String) :=
  match call.operation with
  | .beginRequest input => some (input.tenant, call.instanceId)
  | .beginAttempt input => some (input.request.tenant, input.request.leaseOwner)
  | .finalizeAttempt attempt _ => some (attempt.tenant, attempt.leaseOwner)
  | .finalizeRequestUsage request _ => some (request.tenant, request.leaseOwner)
  | .renewLease request => some (request.tenant, request.leaseOwner)
  | .reconcileExpired => none
  | .updateBudget _ => none
  | .adjustBudget _ _ => none

theorem RequestStep.record_eq {call : Call} {ledgerId : String} {old row : RequestRow}
    (h : RequestStep call ledgerId old row) (hold : old.record.state ≠ .started) :
    row.record = old.record := by
  unfold RequestStep at h
  split at h
  · rcases h.2.2.2 with h | ⟨hstarted, -⟩
    · exact h
    · exact absurd hstarted hold
  · exact absurd (old.record.openFor_iff.mp h.2.1).2 hold
  · exact absurd ((old.record.expired_iff _).mp h.1).1 hold
  · exact h.elim

theorem AttemptStep.started {call : Call} {old row : AttemptRow}
    (h : AttemptStep call attemptId old row) : old.record.state = .started := by
  unfold AttemptStep at h
  split at h
  · exact (old.record.openFor_iff.mp h.2.1).2
  · exact (old.record.openFor_iff.mp h.1).2
  · exact ((old.record.expired_iff _).mp h.1).1
  · exact h.elim

section Scope

variable {call : Call} {tenant : TenantKey} {leaseOwner : String}

theorem not_foreign {r : Record} (h : r.inScope tenant leaseOwner) :
    ¬(r.tenant ≠ tenant ∨ r.leaseOwner ≠ leaseOwner) := by
  simp [r.inScope_iff.mp h]

theorem RequestStep.inScope {ledgerId : String} {old row : RequestRow}
    (h : RequestStep call ledgerId old row) (hscope : call.scope = some (tenant, leaseOwner)) :
    old.record.inScope tenant leaseOwner := by
  unfold RequestStep at h
  split at h
  next hop =>
    simp only [scope, hop, some.injEq, Prod.mk.injEq] at hscope
    exact hscope.1 ▸ hscope.2 ▸ h.2.1
  next hop =>
    simp only [scope, hop, some.injEq, Prod.mk.injEq] at hscope
    exact hscope.1 ▸ hscope.2 ▸ (old.record.openFor_iff.mp h.2.1).1
  next hop => simp [scope, hop] at hscope
  · exact h.elim

theorem AttemptStep.inScope {attemptId : String} {old row : AttemptRow}
    (h : AttemptStep call attemptId old row) (hscope : call.scope = some (tenant, leaseOwner)) :
    old.record.inScope tenant leaseOwner := by
  unfold AttemptStep at h
  split at h
  next hop =>
    simp only [scope, hop, some.injEq, Prod.mk.injEq] at hscope
    exact hscope.1 ▸ hscope.2 ▸ (old.record.openFor_iff.mp h.2.1).1
  next hop =>
    simp only [scope, hop, some.injEq, Prod.mk.injEq] at hscope
    exact hscope.1 ▸ hscope.2 ▸ (old.record.openFor_iff.mp h.1).1
  next hop => simp [scope, hop] at hscope
  · exact h.elim

end Scope

section Runs

variable {sha256 : String → String} {created : ℤ} {s s' : LedgerServer} {i : ℕ}

theorem paired_migrated (created : ℤ) : Paired (migrated created) := fun _ _ => rfl

theorem sessionInvariant_paired (sha256 : String → String) :
    Server.SessionInvariant (program sha256) Paired
      (Server.Guarded Paired (fun _ _ => PairedBut Closing []) fun _ _ _ _ => True) :=
  .of_wp (fun call _ => wp_program_paired _ call) fun _ _ _ _ _ h => h.paired_union

theorem Reachable.guarded_paired (h : Reachable sha256 created s) :
    Server.Holds Paired (Server.Guarded Paired (fun _ _ => PairedBut Closing [])
      fun _ _ _ _ => True) s :=
  Server.Run.holds (sessionInvariant_paired _) h (.initial (paired_migrated _))

theorem Reachable.keepsClosed_step (h : Reachable sha256 created s)
    (hstep : Server.Step (program sha256) i s s') : KeepsClosed s.db s'.db where
  request {ledgerId row} hrow hclosed := by
    rcases hstep.row_cases h.traced (.request ledgerId) with hk | ⟨_, _, _, row', _, _, _, hk, hS⟩
    · exact ⟨row, hk.trans hrow, rfl⟩
    · rw [hrow] at hS
      exact ⟨row', hk, RequestStep.record_eq hS hclosed⟩
  attempt {attemptId row} hrow hclosed := by
    rcases hstep.row_cases h.traced (.attempt attemptId) with hk | ⟨_, _, _, row', _, _, _, hk, hS⟩
    · exact hk.trans hrow
    · rw [hrow] at hS
      exact absurd (AttemptStep.started hS) hclosed
  reservation {tenant attemptId row} hrow hclosed := by
    rcases hstep.row_cases h.traced (.reservation tenant attemptId) with
      hk | ⟨_, _, _, row', _, _, _, hk, hS⟩
    · exact hk.trans hrow
    · rw [hrow] at hS
      exact absurd hS.1 hclosed

theorem KeepsClosed.trans {db db' db'' : Tables} (h : KeepsClosed db db')
    (h' : KeepsClosed db' db'') : KeepsClosed db db'' where
  request hrow hclosed := by
    obtain ⟨_, hrow', hrecord⟩ := h.request hrow hclosed
    obtain ⟨row'', hrow'', hrecord'⟩ := h'.request hrow' (hrecord ▸ hclosed)
    exact ⟨row'', hrow'', hrecord'.trans hrecord⟩
  attempt hrow hclosed := h'.attempt (h.attempt hrow hclosed) hclosed
  reservation hrow hclosed := h'.reservation (h.reservation hrow hclosed) hclosed

theorem Reachable.keepsClosed (h : Reachable sha256 created s)
    (hrun : Server.Run (program sha256) s s') : KeepsClosed s.db s'.db := by
  induction hrun with
  | refl => exact ⟨fun hrow _ => ⟨_, hrow, rfl⟩, fun hrow _ => hrow, fun hrow _ => hrow⟩
  | tail hrun hstep ih =>
    obtain ⟨i, hstep⟩ := hstep
    exact ih.trans (keepsClosed_step (h.trans hrun) hstep)

theorem Reachable.opensInitial (h : Reachable sha256 created s)
    (hstep : Server.Step (program sha256) i s s') : OpensInitial s.db s'.db where
  request {ledgerId row} hnone hrow := by
    rcases hstep.row_cases h.traced (.request ledgerId) with hk | ⟨_, _, _, row', _, _, _, hk, hS⟩
    · simp [hk, hnone] at hrow
    · rw [hnone] at hS
      obtain ⟨input, -, -, rfl⟩ := hS
      cases hk.symm.trans hrow
      rfl
  attempt {attemptId row} hnone hrow := by
    rcases hstep.row_cases h.traced (.attempt attemptId) with hk | ⟨_, _, _, row', _, _, _, hk, hS⟩
    · simp [hk, hnone] at hrow
    · rw [hnone] at hS
      obtain ⟨_, -, -, -, -, hstarted⟩ := hS
      cases hk.symm.trans hrow
      exact hstarted
  reservation {tenant attemptId row} hnone hrow := by
    rcases hstep.row_cases h.traced (.reservation tenant attemptId) with
      hk | ⟨_, _, _, row', _, _, _, hk, hS⟩
    · simp [hk, hnone] at hrow
    · rw [hnone] at hS
      obtain ⟨_, -, -, -, hreserved⟩ := hS
      cases hk.symm.trans hrow
      exact hreserved

theorem Reachable.keepsForeign (h : Reachable sha256 created s)
    (hstep : Server.Step (program sha256) i s s') {call : Call}
    (hcall : (s'.calls i).op = some call) {tenant : TenantKey} {leaseOwner : String}
    (hscope : call.scope = some (tenant, leaseOwner)) :
    KeepsForeign tenant leaseOwner s.db s'.db where
  request {ledgerId row} hrow hforeign := by
    rcases hstep.row_cases h.traced (.request ledgerId) with
      hk | ⟨_, _, _, row', _, hi, _, hk, hS⟩
    · exact hk.trans hrow
    · rw [hi] at hcall
      cases hcall
      rw [hrow] at hS
      exact absurd hforeign (not_foreign (RequestStep.inScope hS hscope))
  attempt {attemptId row} hrow hforeign := by
    rcases hstep.row_cases h.traced (.attempt attemptId) with
      hk | ⟨_, _, _, row', _, hi, _, hk, hS⟩
    · exact hk.trans hrow
    · rw [hi] at hcall
      cases hcall
      rw [hrow] at hS
      exact absurd hforeign (not_foreign (AttemptStep.inScope hS hscope))
  reservation {attemptId row} hrow hforeign t := by
    rcases hstep.row_cases h.traced (.reservation t attemptId) with
      hk | ⟨_, _, w, row', hrunning, hi, hw, hk, hS⟩
    · exact hk
    · rw [hi] at hcall
      cases hcall
      -- the call wrote the attempt as well, and that it may do only in its own scope
      have hpost := h.guarded_paired.session i _ _ _ hrunning _ h.guarded_paired.db (.refl _ _)
      have hmem := ((wp_pure _ _).mp hpost).locked t _
        (lookup_isSome.mp (by rw [hw]; rfl))
      obtain ⟨_, hattempt⟩ := isSome_iff_exists.mp (lookup_isSome.mpr hmem)
      have hSattempt := (h.traced.session i _ _ _ hrunning).2 _ _ hattempt
      rw [hrow] at hSattempt
      exact absurd hforeign (not_foreign (AttemptStep.inScope hSattempt hscope))

end Runs

/-- In every state that interleaved calls of any gateway instances reach, attempts and
reservations are closed together; whatever is closed stays as it was closed in all that
follows; and a step of a call brings rows in only in their initial state, and changes none
of another tenant or lease owner than the call carries. -/
theorem ledger_lifecycle {sha256 : String → String} {created : ℤ} {s : LedgerServer}
    (h : Reachable sha256 created s) :
    ClosedTogether s.db ∧
    (∀ s', Server.Run (Call.program sha256) s s' → KeepsClosed s.db s'.db) ∧
    ∀ i s' call, Server.Step (Call.program sha256) i s s' → (s'.calls i).op = some call →
      OpensInitial s.db s'.db ∧
      ∀ tenant leaseOwner, call.scope = some (tenant, leaseOwner) →
        KeepsForeign tenant leaseOwner s.db s'.db :=
  ⟨h.guarded_paired.db.closedTogether, fun _ => h.keepsClosed,
    fun _ _ _ hstep hcall => ⟨h.opensInitial hstep, fun _ _ hscope =>
      h.keepsForeign hstep hcall hscope⟩⟩

/-- The attempt of the sample run, once completed, stays completed. -/
theorem ledger_lifecycle_sample : ∃ (s : LedgerServer) (row : AttemptRow), Reachable id 0 s ∧
    s.db.lookup (Key.attempt "att_1") = some row ∧ row.record.state = .completed ∧
    (∃ reservation, s.db.lookup (Key.reservation row.record.tenant "att_1") = some reservation ∧
      reservation.state ≠ .reserved) ∧
    ∀ s', Server.Run (Call.program id) s s' → s'.db.lookup (Key.attempt "att_1") = some row := by
  have hrun : (Server.sequential (program id) sampleCalls (migrated 0)).bind (fun db =>
      (db.lookup (.attempt "att_1")).map (·.record.state)) = some .completed := by decide +kernel
  obtain ⟨_, hdb, hrow⟩ := bind_eq_some_iff.mp hrun
  obtain ⟨row, hrow, hstate⟩ := map_eq_some_iff.mp hrow
  obtain ⟨s, hs, rfl, -⟩ := Server.exists_run_of_sequential hdb
  obtain ⟨htogether, hkeeps, -⟩ := ledger_lifecycle hs
  have hclosed : row.record.state ≠ .started := by simp [hstate]
  obtain ⟨reservation, hreservation, hiff⟩ := htogether.reservation hrow
  exact ⟨s, row, hs, hrow, hstate, ⟨reservation, hreservation, hiff.mp hclosed⟩,
    fun s' hs' => (hkeeps s' hs').attempt hrow hclosed⟩

end RouteSmith.Model.Ledger
