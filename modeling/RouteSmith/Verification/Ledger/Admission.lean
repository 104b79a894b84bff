import RouteSmith.Verification.Ledger.Conservation

/-! # Budget admission

However many attempts begin at once, each one that is admitted leaves its account within
the limit it was checked against, and each one that is refused leaves no trace.
-/

namespace RouteSmith.Model.Ledger

open Store Store.Txn

/-- An account whose balances are within its limit, where it has one. -/
def AccountRow.WithinLimit (a : AccountRow) : Prop :=
  ∀ limit, a.limitMicrounits = some limit → a.settledMicrounits + a.reservedMicrounits ≤ limit

theorem AccountRow.reserve_withinLimit {a row : AccountRow} {amount now : ℤ}
    (h : a.reserve amount now = .ok (some row)) : row.WithinLimit := by
  obtain ⟨hr, hs, hlimit, hle⟩ := reserve_ok h
  intro _ hrow
  have := hle _ (hlimit ▸ hrow)
  omega

/-- The account row a transaction is about to commit for a tenant is within its limit. -/
def Admitted (tenant : TenantKey) (w : Tables) : Prop :=
  ∃ account, w.lookup (Key.account tenant) = some account ∧ AccountRow.WithinLimit account

theorem Admitted.union {tenant : TenantKey} {u w : Tables} (h : Admitted tenant w)
    (hu : .account tenant ∉ u) : Admitted tenant (u ∪ w) := by
  obtain ⟨account, haccount, hlimit⟩ := h
  exact ⟨account, (AList.lookup_union_right hu).trans haccount, hlimit⟩

theorem wp_reserveBudget (input : BeginAttempt) (call : Call) (w db : Tables) :
    (reserveBudget input call).Wp (fun _ => True) (fun _ w _ => Admitted input.request.tenant w)
      (fun _ _ _ => True) w db := by
  simp only [reserveBudget, wp_bind]
  refine wp_update (fun _ => trivial) (fun _ _ _ _ => (wp_raise _ _).mpr trivial)
    fun _ row _ hrow _ _ _ => ?_
  -- the row the limit is checked on stays locked, so it is the row that is committed
  have hadmitted : Admitted input.request.tenant
      (.singleton (.account input.request.tenant) row ∪ w) :=
    ⟨row, by simp, AccountRow.reserve_withinLimit hrow⟩
  simp only [wp_bind, wp_pure]
  refine wp_statement (fun _ _ => trivial) fun u _ h _ _ _ => ?_
  obtain ⟨-, -, rfl⟩ := insertReservationExec_ok h
  refine wp_insertNew (fun _ => trivial) fun _ _ _ _ => ?_
  exact (hadmitted.union (by simp)).union (by simp)

theorem wp_beginAttempt (input : BeginAttempt) (call : Call) (db : Tables) :
    (beginAttempt input call).Wp (fun _ => True) (fun _ w _ => Admitted input.request.tenant w)
      (fun _ _ _ => True) ∅ db := by
  simp only [beginAttempt, wp_bind]
  refine wp_statement (fun _ _ => trivial) fun u found _ _ _ _ => ?_
  cases found with
  | false => exact (wp_raise _ _).mpr trivial
  | true =>
    simp only [Bool.not_true, Bool.false_eq_true, if_false, wp_bind]
    exact wp_insertIgnore (fun _ _ => trivial) (fun _ _ _ _ => wp_reserveBudget _ call _ _)
      fun _ _ _ _ => wp_reserveBudget _ call _ _

/-! ## The budget view -/

theorem le_tdiv_iff {a b c : ℤ} (ha : 0 ≤ a) (hb : 0 < b) : c ≤ a.tdiv b ↔ c * b ≤ a := by
  rw [Int.tdiv_eq_ediv_of_nonneg ha]
  exact Int.le_ediv_iff_mul_le hb

/-- A threshold is compared with the exact ratio, unless nothing at all may be consumed and nothing
is. -/
theorem utilizationBps_spec {consumed limit : ℤ} (hconsumed : 0 ≤ consumed)
    (hmax : consumed ≤ 2 ^ 63 - 1) (hlimit : 0 ≤ limit) :
    ∃ bps, utilizationBps consumed limit = some bps ∧ ∀ c, 0 < c → c ≤ 10000 →
      (c ≤ bps ↔ c * limit ≤ consumed * 10000 ∧ ¬(limit = 0 ∧ consumed = 0)) := by
  rcases hlimit.eq_or_lt with rfl | hpos
  · refine ⟨_, rfl, fun c hc hle => ?_⟩
    split <;> simp <;> omega
  · have hfits : isI128 (consumed * 10000) = true := by
      simp [isI128]
      omega
    refine ⟨_, (if_neg hpos.ne').trans (if_pos hfits), fun c hc hle => ?_⟩
    have hexact : c ≤ (consumed * 10000).tdiv limit ↔ c * limit ≤ consumed * 10000 :=
      le_tdiv_iff (by omega) hpos
    have hnonneg : 0 ≤ (consumed * 10000).tdiv limit :=
      (le_tdiv_iff (by omega) hpos).mpr (by omega)
    split
    · simp [hexact, hpos.ne']
    next hbig =>
      simp only [isBigint, Bool.and_eq_true, decide_eq_true_eq, not_and] at hbig
      have hle : c ≤ (consumed * 10000).tdiv limit := by have := hbig (by omega); omega
      omega

/-- An account without room for more refuses every attempt that costs something. -/
theorem beginAttempt_refused {a : AccountRow} {limit : ℤ} {input : BeginAttempt} {call : Call}
    {db : Tables} (hlimit : a.limitMicrounits = some limit)
    (hfull : limit ≤ a.reservedMicrounits + a.settledMicrounits)
    (ha : db.lookup (.account input.request.tenant) = some a) (hamount : 0 < input.amount) :
    ∀ result, (beginAttempt input call).run db ∅ ≠ .ok result := by
  have hreserve : ∀ row, a.reserve input.amount call.now ≠ .ok (some row) := fun row h => by
    have := (AccountRow.reserve_ok h).2.2.2 _ hlimit
    omega
  simp only [beginAttempt, run_bind, statement, run]
  cases hexec : insertAttemptExec input.request input.attemptId (input.row call) (∅ ∪ db) with
  | error => simp
  | ok written =>
    obtain ⟨u, _⟩ := written
    rcases insertAttemptExec_ok hexec with ⟨rfl, rfl⟩ | ⟨rfl, -, rfl⟩
    · simp [run]
    · cases hchange : a.reserve input.amount call.now with
      | error =>
        simp [run_bind, run, insertIgnore, insertIgnoreExec, statement, reserveBudget, update,
          updateExec, ha, hchange]
      | ok changed =>
        cases changed with
        | none =>
          simp [run_bind, run, insertIgnore, insertIgnoreExec, statement, reserveBudget, update,
            updateExec, ha, hchange]
        | some row => exact absurd hchange (hreserve row)

/-- The flags of the view compare what is reserved and settled with the limit, unless all three are
zero, and where the limit is shown as reached every attempt that costs something is refused. -/
theorem budgetAccount_flags (tenant : TenantKey) {a : AccountRow} {limit : ℤ}
    (hlimit : a.limitMicrounits = some limit) (hnonneg : 0 ≤ limit) (hmax : limit ≤ 2 ^ 63 - 1)
    (hreserved : 0 ≤ a.reservedMicrounits) (hsettled : 0 ≤ a.settledMicrounits) :
    ∃ view, budgetAccount tenant a = some view ∧
      (view.hardLimitReached = true ↔ limit ≤ a.reservedMicrounits + a.settledMicrounits ∧
        ¬(limit = 0 ∧ a.reservedMicrounits + a.settledMicrounits = 0)) ∧
      (view.warningThresholdReached = true ↔
        8 * limit ≤ 10 * (a.reservedMicrounits + a.settledMicrounits) ∧
        ¬(limit = 0 ∧ a.reservedMicrounits + a.settledMicrounits = 0)) ∧
      (view.hardLimitReached = true → ∀ (input : BeginAttempt) (call : Call) (db : Tables),
        input.request.tenant = tenant → db.lookup (Key.account tenant) = some a →
        0 < input.amount → ∀ result, (beginAttempt input call).run db ∅ ≠ .ok result) := by
  have hconsumed : saturateI64 (a.reservedMicrounits + a.settledMicrounits) =
      min (2 ^ 63 - 1) (a.reservedMicrounits + a.settledMicrounits) := by
    simp only [saturateI64]
    omega
  have hpos : 0 ≤ saturateI64 (a.reservedMicrounits + a.settledMicrounits) := by omega
  obtain ⟨_, hbps, hthreshold⟩ := utilizationBps_spec hpos (by omega) hnonneg
  have hhard := hthreshold 10000 (by omega) le_rfl
  have hwarning := hthreshold 8000 (by omega) (by omega)
  refine ⟨_, by simp [budgetAccount, hlimit, hbps]; rfl, ?_, ?_, fun hreached => ?_⟩
  · simp
    omega
  · simp
    omega
  · rintro _ _ _ rfl ha hamount
    refine beginAttempt_refused hlimit ?_ ha hamount
    simp at hreached
    omega

/-- A used-up account is shown as such. -/
theorem budgetAccount_flags_sample : ∃ view,
    budgetAccount .local ⟨some 100, 60, 40, 0, 0⟩ = some view ∧ view.hardLimitReached = true := by
  obtain ⟨view, hview, hhard, -⟩ := budgetAccount_flags .local (a := ⟨some 100, 60, 40, 0, 0⟩) rfl
    (by decide) (by decide) (by decide) (by decide)
  exact ⟨view, hview, hhard.mpr (by decide)⟩

/-- A limit of nothing is not shown as reached while nothing is consumed. -/
theorem zero_limit_not_reached : ∃ view, budgetAccount .local ⟨some 0, 0, 0, 0, 0⟩ = some view ∧
    view.hardLimitReached = false ∧ view.warningThresholdReached = false := ⟨_, rfl, rfl, rfl⟩

/-! ## Attempts that begin at once -/

/-- What a call has established when it returns: a `begin_attempt` has admitted its tenant. -/
def AdmissionPost (call : Call) (_ : Reply) (w _ : Tables) : Prop :=
  ∀ input, call.operation = .beginAttempt input → Admitted input.request.tenant w

theorem wp_admission (sha256 : String → String) (call : Call) (db : Tables) :
    (call.program sha256).Wp (fun _ => True) (AdmissionPost call) (fun _ _ _ => True) ∅ db := by
  by_cases hop : ∃ input, call.operation = .beginAttempt input
  · obtain ⟨input, hop⟩ := hop
    simp only [Call.program, hop]
    refine (wp_beginAttempt _ call db).mono fun _ w _ hadmitted _ hop' => ?_
    rw [hop] at hop'
    cases hop'
    exact hadmitted
  · exact (wp_true ..).mono fun _ _ _ _ input hop' => absurd ⟨input, hop'⟩ hop

/-- In any interleaving of calls on any tenants, a `begin_attempt` that succeeds leaves its
account within the limit it committed with, and a `begin_attempt` that returns an error, or
is dropped, changed no committed row at any of its steps. -/
theorem beginAttempt_admission {sha256 : String → String} {created : ℤ} {s s' s'' : LedgerServer}
    {i : ℕ} {call : Call} {input : BeginAttempt} (h : Reachable sha256 created s)
    (hstep : Server.Step (Call.program sha256) i s s')
    (hrun : Server.Run (Call.program sha256) s' s'')
    (hop : call.operation = .beginAttempt input) :
    (∀ reply, s.calls i ≠ .returned call (.ok reply) → s'.calls i = .returned call (.ok reply) →
      ∃ account, s'.db.lookup (.account input.request.tenant) = some account ∧
        account.WithinLimit) ∧
    ((∃ e, s''.calls i = .returned call (.error e)) ∨ s''.calls i = .dropped call →
      s'.db = s.db) := by
  refine ⟨fun _ hne hreturned => ?_, fun hfailed => ?_⟩
  · have hholds := Server.Run.holds
      (.of_wp (fun call db _ => wp_admission _ call db)
        fun _ _ _ _ _ _ => trivial) h (.initial trivial)
    rcases hstep.guarded_return hholds hreturned hne with ⟨_, w, -, hdb, hpost⟩ | ⟨_, _, he, -⟩
    · obtain ⟨account, haccount, hlimit⟩ := hpost _ hop
      refine ⟨account, ?_, hlimit⟩
      rw [hdb, lookup_union, haccount]
      rfl
    · cases he
  · refine hstep.db_eq_of_not_ok hrun fun _ a hok => ?_
    rcases hfailed with ⟨e, he⟩ | hdropped
    · rw [hok] at he
      cases he
    · rw [hok] at hdropped
      cases hdropped

/-- An account limited to 5000 microunits admits an attempt of 1600. -/
theorem beginAttempt_admission_sample : ∃ (s s' : LedgerServer) (i : ℕ) (account : AccountRow),
    Reachable id 0 s ∧ Server.Step (Call.program id) i s s' ∧
      s'.db.lookup (.account .local) = some account ∧ account.limitMicrounits = some 5000 ∧
      account.WithinLimit := by
  let calls := [sampleCall (.beginRequest (sampleRequest none)) "r" 1,
    sampleCall (.updateBudget ⟨"org_local", "prj_default", "env_default", false, some 5000⟩) "u" 2]
  let call := sampleCall (.beginAttempt (sampleAttempt "att_1")) "a" 3
  have hlimit : (Server.sequential (Call.program id) calls (migrated 0)).bind (fun db =>
      ((call.program id).run db ∅).toOption.bind fun (_, w) =>
        ((w ∪ db).lookup (.account .local)).map (·.limitMicrounits)) = some (some 5000) := by
    decide +kernel
  obtain ⟨_, hdb, hlimit⟩ := Option.bind_eq_some_iff.mp hlimit
  obtain ⟨⟨reply, w⟩, hcall, hlimit⟩ := Option.bind_eq_some_iff.mp hlimit
  obtain ⟨_, haccount', hfive⟩ := Option.map_eq_some_iff.mp hlimit
  obtain ⟨s, hs, rfl, hquiet, hidle, -⟩ := Server.exists_run_of_sequential hdb
  have hcall : (call.program id).run s.db ∅ = .ok (reply, w) := by
    cases hrun : (call.program id).run s.db ∅ with
    | error => simp [hrun, Except.toOption] at hcall
    | ok => simpa [hrun, Except.toOption] using hcall
  obtain ⟨s₁, s₂, hs₁, hstep, -, hrunning, hreturned, hdb₂, -⟩ :=
    hquiet.exists_commit (hidle _ le_rfl) hcall
  obtain ⟨account, haccount, hwithin⟩ := (beginAttempt_admission (hs.trans hs₁) hstep .refl rfl).1
    reply (by rw [hrunning]; nofun) hreturned
  refine ⟨s₁, s₂, _, account, hs.trans hs₁, hstep, haccount, ?_, hwithin⟩
  rw [hdb₂] at haccount
  cases haccount'.symm.trans haccount
  exact hfive

end RouteSmith.Model.Ledger
