import RouteSmith.Model.StreamFinalizer
import RouteSmith.Verification.Streams.Endings

/-! # Streams are finalized once

Whatever happens to a streamed response, its outcome is written down by the first event that ends
it, from the record as it stands at that moment.
-/

namespace RouteSmith.Model

open StreamTerminalOutcome ResponseEvent

/-- An event after which a response needs no further one to be finalized. -/
def ResponseEvent.ends : ResponseEvent → Bool
  | endOfBody | bodyError _ | drop => true
  | update _ _ | chunk | resume => false

/-- The record after the updates among some events. -/
def recordAfter (l : StreamLifecycle) (events : List ResponseEvent) : StreamLifecycle :=
  events.foldl (fun l event =>
    match event with
    | .update elapsed u => u.apply elapsed l
    | _ => l) l

/-- The outcome of a response that an event ends. -/
def ResponseEvent.outcome (l : StreamLifecycle) : ResponseEvent → StreamTerminalOutcome
  | endOfBody => .afterEof l
  | bodyError error => .afterBodyError l error
  | _ => .afterDrop l

theorem LifecycleUpdate.state_apply_of_ne_pending {l : StreamLifecycle} (h : l.state ≠ .pending)
    (elapsed : ℕ) (u : LifecycleUpdate) : (u.apply elapsed l).state = l.state := by
  cases hmark : (.update u : StreamAction Unit).mark? with
  | none => exact StreamAction.state_apply_of_mark?_eq_none hmark elapsed l
  | some =>
    exact (StreamAction.state_apply_of_mark?_eq_some hmark _ l).2.trans (if_neg h)

/-! ## Steps -/

namespace ResponseStream

theorem foldl_step_of_not_ends {events : List ResponseEvent} (h : ∀ e ∈ events, e.ends = false)
    (l : StreamLifecycle) :
    events.foldl step { lifecycle := l } = { lifecycle := recordAfter l events } := by
  induction events generalizing l with
  | nil => rfl
  | cons e _ ih =>
    obtain ⟨he, hevents⟩ := List.forall_mem_cons.mp h
    cases e with
    | update elapsed u => exact ih hevents (u.apply elapsed l)
    | chunk | resume => exact ih hevents l
    | endOfBody | bodyError | drop => cases he

variable {e : ResponseEvent} {s : ResponseStream}

theorem step_of_ends (h : e.ends = true) (l : StreamLifecycle) :
    (step { lifecycle := l } e).guarded = false ∧
      (step { lifecycle := l } e).finalizations = [finalize l (e.outcome l)] := by
  cases e with
  | endOfBody | bodyError | drop => exact ⟨rfl, rfl⟩
  | update | chunk | resume => cases h

theorem finish_of_not_guarded (h : s.guarded = false) (outcome : StreamTerminalOutcome) :
    s.finish outcome = s := by
  rw [finish, h]
  rfl

theorem step_of_not_guarded (h : s.guarded = false) (e : ResponseEvent) :
    (s.step e).guarded = false ∧ (s.step e).finalizations = s.finalizations := by
  have hclose : s.close.guarded = false ∧ s.close.finalizations = s.finalizations := by
    rw [close, finish_of_not_guarded h]
    exact ⟨h, rfl⟩
  cases e with
  | update | chunk => exact ⟨h, rfl⟩
  | endOfBody =>
    rw [step, finish_of_not_guarded h]
    split_ifs
    · exact hclose
    · exact ⟨h, rfl⟩
  | bodyError =>
    rw [step, finish_of_not_guarded h]
    split_ifs
    · exact ⟨h, rfl⟩
    · exact ⟨h, rfl⟩
  | resume =>
    rw [step]
    split_ifs
    · exact hclose
    · exact ⟨h, rfl⟩
  | drop =>
    rw [step]
    split_ifs
    · exact ⟨h, rfl⟩
    · exact hclose

theorem finalizations_foldl_of_not_guarded (h : s.guarded = false) (events : List ResponseEvent) :
    (events.foldl step s).finalizations = s.finalizations := by
  induction events generalizing s with
  | nil => rfl
  | cons e _ ih =>
    obtain ⟨hguarded, hfinalizations⟩ := step_of_not_guarded h e
    exact (ih hguarded).trans hfinalizations

theorem finalizations_run {before after : List ResponseEvent}
    (hbefore : ∀ x ∈ before, x.ends = false) (he : e.ends = true) :
    (run (before ++ e :: after)).finalizations =
      [finalize (recordAfter {} before) (e.outcome (recordAfter {} before))] := by
  obtain ⟨hguarded, hfinalizations⟩ := step_of_ends he _
  rw [run, List.foldl_append, foldl_step_of_not_ends hbefore, List.foldl_cons,
    finalizations_foldl_of_not_guarded hguarded, hfinalizations]

end ResponseStream

/-! ## Outcomes -/

theorem success_finalize_iff {e : ResponseEvent} (he : e.ends = true) (l : StreamLifecycle) :
    (finalize l (e.outcome l)).success = true ↔ e = .endOfBody ∧ l.state = .completed := by
  cases e with
  | endOfBody =>
    simp only [finalize, outcome, afterEof]
    cases l.state <;> simp [success]
  | bodyError =>
    simp only [finalize, outcome, afterBodyError]
    cases l.state <;> simp [success]
  | drop =>
    simp [finalize, outcome, afterDrop, success]
  | update | chunk | resume => cases he

theorem provider_finalize_iff (e : ResponseEvent) (l : StreamLifecycle) :
    (∃ credit ∈ (finalize l (e.outcome l)).provider, credit.success = true) ↔
      l.state = .completed := by
  cases e with
  | endOfBody =>
    simp only [finalize, outcome, afterEof]
    cases hstate : l.state <;> simp [providerTerminalOutcome]
  | bodyError =>
    simp only [finalize, outcome, afterBodyError]
    cases hstate : l.state <;> simp [providerTerminalOutcome, hstate]
  | _ =>
    simp only [finalize, outcome, afterDrop]
    cases hstate : l.state <;> simp [providerTerminalOutcome, hstate]

/-- A response that nothing has ended is not finalized. One that was ended is finalized once,
whatever came after: as a success if the body ended on a completed record, with the provider
credited if the record was completed by then. A record that is completed or failed stays so. -/
theorem stream_finalization (events : List ResponseEvent) :
    ((∀ e ∈ events, e.ends = false) → (ResponseStream.run events).finalizations = []) ∧
    (∀ before e after, events = before ++ e :: after → (∀ x ∈ before, x.ends = false) →
      e.ends = true → ∃ f, (ResponseStream.run events).finalizations = [f] ∧
        (f.success = true ↔ e = .endOfBody ∧ (recordAfter {} before).state = .completed) ∧
        ((∃ credit ∈ f.provider, credit.success = true) ↔
          (recordAfter {} before).state = .completed)) ∧
    ∀ (l : StreamLifecycle) elapsed (u : LifecycleUpdate), l.state ≠ .pending →
      (u.apply elapsed l).state = l.state := by
  refine ⟨fun h => ?_, fun _ e _ hevents hbefore he => ?_,
    fun l _ u h => u.state_apply_of_ne_pending h _⟩
  · rw [ResponseStream.run, ResponseStream.foldl_step_of_not_ends h]
  · rw [hevents, ResponseStream.finalizations_run hbefore he]
    exact ⟨_, rfl, success_finalize_iff he _, provider_finalize_iff e _⟩

/-- A body that fails after the upstream has completed: no success, but the provider is credited. -/
theorem stream_finalization_sample : ∃ f, (ResponseStream.run
      [.chunk, .update 3 .completed, .bodyError "reset", .drop]).finalizations = [f] ∧
      f.success = false ∧ ∃ credit ∈ f.provider, credit.success = true := by
  obtain ⟨f, hf, hsuccess, hprovider⟩ :=
    (stream_finalization [.chunk, .update 3 .completed, .bodyError "reset", .drop]).2.1
      [.chunk, .update 3 .completed] (.bodyError "reset") [.drop] rfl (by simp [ends])
      rfl
  refine ⟨f, hf, ?_, hprovider.mpr rfl⟩
  rw [← Bool.not_eq_true, hsuccess]
  nofun

end RouteSmith.Model
