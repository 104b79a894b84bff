import RouteSmith.Verification.Ledger.RowSteps

/-! # What an attempt is settled with

The rows that `finalize_attempt` changes, in any interleaving of calls, carry the usage of
the outcome it was called with.
-/

namespace RouteSmith.Model.Ledger

open Store Store.Txn

/-- The token counts and the cost of a row are those of an estimate. -/
structure Record.Carries (r : Record) (usage : UsageEstimate) : Prop where
  inputTokens : r.inputTokens = toI64 usage.inputTokens
  outputTokens : r.outputTokens = toI64 usage.outputTokens
  cacheWriteTokens : r.cacheWriteTokens = toI64 usage.cacheWriteTokens
  cacheReadTokens : r.cacheReadTokens = toI64 usage.cacheReadTokens
  cost : r.costAmountMicrounits = costMicrounits usage.costEstimate

theorem Record.finalize_carries (r : Record) (outcome : LedgerOutcome) (now : ℤ) :
    (r.finalize outcome now).Carries outcome.estimate :=
  ⟨rfl, rfl, rfl, rfl, rfl⟩

def ReservationRow.SettledWith (r : ReservationRow) (usage : UsageEstimate) : Prop :=
  r.state = .settled ∧ r.settledMicrounits = costMicrounits usage.costEstimate

/-- The rows that a transaction has written for an attempt carry a given usage. -/
structure Settles (attempt : LedgerAttempt) (usage : UsageEstimate) (w : Tables) : Prop where
  attempt_row : ∀ row : AttemptRow, w.lookup (Key.attempt attempt.attemptId) = some row →
    row.record.Carries usage
  reservation_row : ∀ row : ReservationRow,
    w.lookup (Key.reservation attempt.tenant attempt.attemptId) = some row → row.SettledWith usage

section

variable {attempt : LedgerAttempt} {usage : UsageEstimate} {w : Tables}

theorem settles_empty : Settles attempt usage ∅ := by
  constructor <;>
  · intro _ hrow
    simp at hrow

theorem Settles.union {u : Tables} (h : Settles attempt usage w)
    (hu : Settles attempt usage u) : Settles attempt usage (u ∪ w) := by
  refine ⟨fun row hrow => ?_, fun row hrow => ?_⟩
  · rcases lookup_eq_or u w hrow with hrow | ⟨-, hrow⟩
    · exact hu.attempt_row row hrow
    · exact h.attempt_row row hrow
  · rcases lookup_eq_or u w hrow with hrow | ⟨-, hrow⟩
    · exact hu.reservation_row row hrow
    · exact h.reservation_row row hrow

theorem settles_singleton_attempt {attemptId : String} {row : AttemptRow}
    (h : row.record.Carries usage) :
    Settles attempt usage (.singleton (.attempt attemptId) row) := by
  refine ⟨fun _ hrow' => ?_, fun _ hrow' => ?_⟩
  · obtain ⟨hk, rfl⟩ := lookup_singleton hrow'
    cases hk
    exact h
  · obtain ⟨hk, -⟩ := lookup_singleton hrow'
    cases hk

theorem settles_singleton_reservation (tenant : TenantKey) (attemptId : String)
    {row : ReservationRow} (h : row.SettledWith usage) :
    Settles attempt usage (.singleton (.reservation tenant attemptId) row) := by
  refine ⟨fun _ hrow' => ?_, fun _ hrow' => ?_⟩
  · obtain ⟨hk, -⟩ := lookup_singleton hrow'
    cases hk
  · obtain ⟨hk, rfl⟩ := lookup_singleton hrow'
    cases hk
    exact h

theorem settles_singleton_account {tenant : TenantKey} {row : AccountRow} :
    Settles attempt usage (.singleton (.account tenant) row) := by
  refine ⟨fun _ hrow' => ?_, fun _ hrow' => ?_⟩ <;>
  · obtain ⟨hk, -⟩ := lookup_singleton hrow'
    cases hk

theorem settles_singleton_event {eventId : String} {row : EventRow} :
    Settles attempt usage (.singleton (.event eventId) row) := by
  refine ⟨fun _ hrow' => ?_, fun _ hrow' => ?_⟩ <;>
  · obtain ⟨hk, -⟩ := lookup_singleton hrow'
    cases hk

end

variable {attempt : LedgerAttempt} {outcome : LedgerOutcome} {call : Call}

theorem wp_settleBudget_settles {w db : Tables} (h : Settles attempt outcome.estimate w) :
    (settleBudget attempt outcome call).Wp (fun _ => True)
      (fun _ w _ => Settles attempt outcome.estimate w) (fun _ _ _ => True) w db := by
  simp only [settleBudget]
  rw [wp_bind]
  refine wp_update (fun _ => trivial) (fun _ _ _ _ => (wp_raise _ _).mpr trivial)
    fun _ row _ hrow _ _ _ => ?_
  have hsettled : row.SettledWith outcome.estimate := by
    obtain ⟨-, rfl⟩ := ok_ite_eq_some.mp hrow
    exact ⟨rfl, rfl⟩
  have h := h.union (settles_singleton_reservation attempt.tenant attempt.attemptId hsettled)
  rw [wp_bind]
  refine wp_update (fun _ => trivial) (fun _ _ _ _ => (wp_raise _ _).mpr trivial)
    fun _ _ _ _ _ _ _ => ?_
  exact wp_insertNew (fun _ => trivial) fun _ _ _ _ =>
    (h.union settles_singleton_account).union settles_singleton_event

theorem wp_finalizeAttempt_settles (attempt : LedgerAttempt) (outcome : LedgerOutcome) (call : Call)
    (db : Tables) :
    (finalizeAttempt attempt outcome call).Wp (fun _ => True)
      (fun _ w _ => Settles attempt outcome.estimate w) (fun _ _ _ => True) ∅ db := by
  simp only [finalizeAttempt, updateTerminalAttempt, wp_bind, wp_pure]
  refine wp_update (fun _ => trivial) (fun _ _ _ _ => ?_) fun old _ _ hrow _ _ _ => ?_
  · simp only [Option.isSome_none, Bool.false_eq_true, if_false, wp_bind]
    refine wp_query fun _ _ _ => ?_
    split
    · exact (wp_pure _ _).mpr settles_empty
    · exact (wp_raise _ _).mpr trivial
  · simp only [Option.isSome_some, if_true, wp_bind, wp_pure]
    refine wp_settleBudget_settles (settles_empty.union (settles_singleton_attempt ?_))
    obtain ⟨-, rfl⟩ := ok_ite_eq_some.mp hrow
    exact old.record.finalize_carries _ _

/-- What a call has established when it returns: a `finalize_attempt` has settled. -/
def SettlementPost (call : Call) (_ : Reply) (w _ : Tables) : Prop :=
  ∀ attempt outcome, call.operation = .finalizeAttempt attempt outcome →
    Settles attempt outcome.estimate w

theorem wp_settlementPost (sha256 : String → String) (call : Call) (db : Tables) :
    (call.program sha256).Wp (fun _ => True) (SettlementPost call) (fun _ _ _ => True) ∅ db := by
  by_cases hop : ∃ attempt outcome, call.operation = .finalizeAttempt attempt outcome
  · obtain ⟨_, _, hop⟩ := hop
    simp only [Call.program, hop]
    refine (wp_finalizeAttempt_settles _ _ call db).mono
      fun _ w _ hsettles _ _ hop' => ?_
    rw [hop] at hop'
    cases hop'
    exact hsettles
  · exact (wp_true ..).mono fun _ _ _ _ _ _ hop' => absurd ⟨_, _, hop'⟩ hop

/-- The rows of an attempt that one step of the ledger changed carry a given usage. -/
structure SettledBy (attempt : LedgerAttempt) (usage : UsageEstimate) (s s' : LedgerServer) :
    Prop where
  attempt_row : ∀ row : AttemptRow, s'.db.lookup (Key.attempt attempt.attemptId) = some row →
    s.db.lookup (Key.attempt attempt.attemptId) = some row ∨ row.record.Carries usage
  reservation_row : ∀ row : ReservationRow,
    s'.db.lookup (Key.reservation attempt.tenant attempt.attemptId) = some row →
    s.db.lookup (Key.reservation attempt.tenant attempt.attemptId) = some row ∨
      row.SettledWith usage

/-- Whatever `finalize_attempt` changes of the attempt and of its reservation, in any
interleaving of calls, it changes to the usage of its outcome. -/
theorem finalizeAttempt_settledBy {sha256 : String → String} {created : ℤ} {s s' : LedgerServer}
    {i : ℕ} (h : Reachable sha256 created s) (hstep : Server.Step (Call.program sha256) i s s')
    (hcall : (s'.calls i).op = some call)
    (hop : call.operation = .finalizeAttempt attempt outcome) :
    SettledBy attempt outcome.estimate s s' := by
  rcases hstep.db_eq_or_commit with hdb | ⟨_, _, w, hrunning, hreturned, hdb⟩
  · exact ⟨fun row hrow => .inl (hdb ▸ hrow), fun row hrow => .inl (hdb ▸ hrow)⟩
  · rw [hreturned] at hcall
    cases hcall
    have hholds := Server.Run.holds
      (.of_wp (fun call db _ => wp_settlementPost _ call db)
        fun _ _ _ _ _ _ => trivial) h (.initial trivial)
    have hpost := (wp_pure _ _).mp
      (hholds.session i _ _ _ hrunning _ trivial (.refl _ _)) _ _ hop
    refine ⟨fun row hrow => ?_, fun row hrow => ?_⟩ <;> rw [hdb] at hrow
    · rcases lookup_eq_or w s.db hrow with hrow | ⟨-, hrow⟩
      · exact .inr (hpost.attempt_row row hrow)
      · exact .inl hrow
    · rcases lookup_eq_or w s.db hrow with hrow | ⟨-, hrow⟩
      · exact .inr (hpost.reservation_row row hrow)
      · exact .inl hrow

end RouteSmith.Model.Ledger
