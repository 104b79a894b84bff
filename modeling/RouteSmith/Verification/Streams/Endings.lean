import RouteSmith.Model.StreamLifecycle

/-! # How a stream and its record end

A consumed stream is settled if its record and the last item it delivered agree on how it ended.
Whether it is can be read from the place of the one action that marks the record.
-/

namespace RouteSmith.Model

open List

variable {ε : Type}

/-! ## The state of a record -/

/-- The state an action moves a pending record to. -/
def StreamAction.mark? : StreamAction ε → Option UpstreamStreamState
  | update .completed => some .completed
  | update (.failed message) => some (.failed message)
  | _ => none

theorem StreamLifecycle.state_observeOpenaiResponse (l : StreamLifecycle) (response : Json) :
    (l.observeOpenaiResponse response).state = l.state := by
  rw [observeOpenaiResponse]
  split <;> rfl

theorem StreamLifecycle.state_observeResponseFragment (l : StreamLifecycle)
    (elapsed toolCallCount : ℕ) (textPresent : Bool) (stopReason : Option String) :
    (l.observeResponseFragment elapsed toolCallCount textPresent stopReason).state = l.state := by
  rw [observeResponseFragment]
  split_ifs <;> rfl

theorem StreamAction.state_apply_of_mark?_eq_none {a : StreamAction ε} (h : a.mark? = none)
    (elapsed : ℕ) (l : StreamLifecycle) : (a.apply elapsed l).state = l.state := by
  cases a with
  | event | error => rfl
  | update u =>
    cases u with
    | completed | failed => cases h
    | usage | semanticEvent => rfl
    | fragment => exact l.state_observeResponseFragment ..
    | openaiResponse response => exact l.state_observeOpenaiResponse response

theorem StreamAction.state_apply_of_mark?_eq_some {a : StreamAction ε}
    {state : UpstreamStreamState} (h : a.mark? = some state) (elapsed : ℕ) (l : StreamLifecycle) :
    state ≠ .pending ∧
      (a.apply elapsed l).state = if l.state = .pending then state else l.state := by
  cases a with
  | event | error => cases h
  | update u =>
    cases u with
    | usage | semanticEvent | fragment | openaiResponse => cases h
    | completed | failed =>
      cases h
      exact ⟨nofun, apply_ite StreamLifecycle.state ..⟩

theorem state_lifecycleAfter (elapsed : ℕ → ℕ) (trace : List (StreamAction ε)) :
    (lifecycleAfter elapsed trace).state = (trace.findSome? StreamAction.mark?).getD .pending := by
  suffices hfold : ∀ (trace : List (StreamAction ε)) n (l : StreamLifecycle),
      ((trace.zipIdx n).foldl (fun l action => action.1.apply (elapsed action.2) l) l).state =
        if l.state = .pending then (trace.findSome? StreamAction.mark?).getD .pending
        else l.state from (hfold trace 0 {}).trans (if_pos rfl)
  intro trace
  induction trace with
  | nil => simp +contextual
  | cons a trace ih =>
    intro n l
    rw [zipIdx_cons, foldl_cons, ih, findSome?_cons]
    cases hmark : a.mark? with
    | none => rw [StreamAction.state_apply_of_mark?_eq_none hmark]
    | some =>
      obtain ⟨hstate, happly⟩ := StreamAction.state_apply_of_mark?_eq_some hmark (elapsed n) l
      split_ifs <;> simp_all

/-! ## Events -/

def StreamAction.event? : StreamAction ε → Option ε
  | event e => some e
  | _ => none

/-- The events among the items of a stream. -/
def eventsOf (trace : List (StreamAction ε)) : List ε := trace.filterMap StreamAction.event?

theorem eventsOf_append_singleton (trace : List (StreamAction ε)) (a : StreamAction ε) :
    eventsOf (trace ++ [a]) = eventsOf trace ++ a.event?.toList := by
  cases h : a.event? <;> simp [eventsOf, h]

theorem itemsOf_eq_map_ok {trace : List (StreamAction ε)}
    (h : ∀ a ∈ trace, ∀ error, a ≠ .error error) : itemsOf trace = (eventsOf trace).map .ok := by
  rw [eventsOf, map_filterMap]
  refine filterMap_congr fun a ha => ?_
  cases a with
  | event | update => rfl
  | error error => exact absurd rfl (h _ ha error)

/-! ## Settled streams -/

/-- The events by which a protocol ends a stream. -/
structure StreamProtocol (ε : Type) where
  terminates : ε → Bool
  fails : ε → Bool
  fails_of_terminates : ∀ event, terminates event = true → fails event = false

namespace StreamProtocol

variable (p : StreamProtocol ε)

/-- An item that tells the client of a failure. -/
def isFailure : Except AppError ε → Bool
  | .ok event => p.fails event
  | .error _ => true

def isTerminator : Except AppError ε → Bool
  | .ok event => p.terminates event
  | .error _ => false

/-- The record of a stream agrees with the items that were delivered. -/
structure Settled (state : UpstreamStreamState) (items : List (Except AppError ε)) : Prop where
  not_pending : state ≠ .pending
  completed : state = .completed ↔ ∃ item ∈ items.getLast?, p.isTerminator item = true
  failed : (∃ error, state = .failed error) ↔ ∃ item ∈ items.getLast?, p.isFailure item = true
  exclusive : ¬((∃ item ∈ items, p.isTerminator item = true) ∧
    ∃ item ∈ items, p.isFailure item = true)

/-- An action that neither ends a stream nor decides how it ends. -/
def plain : StreamAction ε → Bool
  | .event event => !p.terminates event && !p.fails event
  | .error _ => false
  | .update .completed | .update (.failed _) => false
  | .update _ => true

variable {p} in
theorem plain_append {trace : List (StreamAction ε)} {a : StreamAction ε}
    (h : ∀ b ∈ trace, p.plain b = true) (ha : p.plain a = true) :
    ∀ b ∈ trace ++ [a], p.plain b = true :=
  forall_mem_append.mpr ⟨h, forall_mem_singleton.mpr ha⟩

/-- The record is marked completed, and the terminator comes last. -/
def Completes (trace : List (StreamAction ε)) : Prop :=
  ∃ before after event, trace = before ++ .update .completed :: (after ++ [.event event]) ∧
    (∀ a ∈ before, p.plain a = true) ∧ (∀ a ∈ after, p.plain a = true) ∧
    p.terminates event = true

/-- The record is marked failed, and an error event comes last. -/
def Fails (trace : List (StreamAction ε)) : Prop :=
  ∃ before error event, trace = before ++ [.update (.failed error), .event event] ∧
    (∀ a ∈ before, p.plain a = true) ∧ p.fails event = true

/-- An error comes last, and the record is not marked. -/
def Raises (trace : List (StreamAction ε)) : Prop :=
  ∃ before error, trace = before ++ [.error error] ∧ ∀ a ∈ before, p.plain a = true

/-! ## Endings -/

variable {p} {trace : List (StreamAction ε)}

theorem mark?_of_plain {a : StreamAction ε} (h : p.plain a = true) : a.mark? = none := by
  cases a with
  | event | error => rfl
  | update u =>
    cases u with
    | completed | failed => cases h
    | usage | semanticEvent | fragment | openaiResponse => rfl

theorem findSome?_mark?_of_plain (h : ∀ a ∈ trace, p.plain a = true) :
    trace.findSome? StreamAction.mark? = none :=
  findSome?_eq_none_iff.mpr fun a ha => mark?_of_plain (h a ha)

theorem items_of_plain (h : ∀ a ∈ trace, p.plain a = true) :
    ∀ item ∈ itemsOf trace, p.isTerminator item = false ∧ p.isFailure item = false := by
  intro _ hitem
  obtain ⟨a, ha, haitem⟩ := mem_filterMap.mp hitem
  have hplain := h a ha
  cases a with
  | event =>
    cases haitem
    simpa [plain, isTerminator, isFailure] using hplain
  | error | update => simp_all [plain, StreamAction.item?]

theorem ne_error_of_plain {a : StreamAction ε} (h : p.plain a = true) (error : AppError) :
    a ≠ .error error := by
  rintro rfl
  cases h

theorem Completes.state (h : p.Completes trace) (elapsed : ℕ → ℕ) :
    (lifecycleAfter elapsed trace).state = .completed := by
  obtain ⟨_, _, _, rfl, hbefore, -, -⟩ := h
  rw [state_lifecycleAfter, findSome?_append, findSome?_mark?_of_plain hbefore]
  rfl

theorem Fails.state (h : p.Fails trace) (elapsed : ℕ → ℕ) :
    ∃ error, (lifecycleAfter elapsed trace).state = .failed error := by
  obtain ⟨_, error, _, rfl, hbefore, -⟩ := h
  rw [state_lifecycleAfter, findSome?_append, findSome?_mark?_of_plain hbefore]
  exact ⟨error, rfl⟩

theorem Raises.state (h : p.Raises trace) (elapsed : ℕ → ℕ) :
    (lifecycleAfter elapsed trace).state = .pending := by
  obtain ⟨_, _, rfl, hbefore⟩ := h
  rw [state_lifecycleAfter, findSome?_append, findSome?_mark?_of_plain hbefore]
  rfl

theorem Completes.items (h : p.Completes trace) : ∃ items event,
    itemsOf trace = items ++ [.ok event] ∧ p.terminates event = true ∧
      ∀ item ∈ items, p.isFailure item = false := by
  obtain ⟨_, _, event, rfl, hbefore, hafter, hevent⟩ := h
  refine ⟨itemsOf _ ++ itemsOf _, event, ?_, hevent, forall_mem_append.mpr
    ⟨fun item h => (items_of_plain hbefore item h).2,
      fun item h => (items_of_plain hafter item h).2⟩⟩
  simp [itemsOf, StreamAction.item?, filterMap_cons]

theorem Fails.items (h : p.Fails trace) : ∃ items event,
    itemsOf trace = items ++ [.ok event] ∧ p.fails event = true ∧
      ∀ item ∈ items, p.isTerminator item = false := by
  obtain ⟨_, _, event, rfl, hbefore, hevent⟩ := h
  refine ⟨itemsOf _, event, ?_, hevent, fun item hitem => (items_of_plain hbefore item hitem).1⟩
  simp [itemsOf, StreamAction.item?, filterMap_cons]

theorem Raises.items (h : p.Raises trace) :
    ∀ item ∈ itemsOf trace, p.isTerminator item = false := by
  obtain ⟨_, _, rfl, hbefore⟩ := h
  rw [itemsOf, filterMap_append]
  exact forall_mem_append.mpr ⟨fun item hitem => (items_of_plain hbefore item hitem).1,
    forall_mem_singleton.mpr rfl⟩

theorem terminates_eq_false_of_fails {event : ε} (h : p.fails event = true) :
    p.terminates event = false := by
  by_contra hterminates
  rw [p.fails_of_terminates _ (by simpa using hterminates)] at h
  cases h

theorem Completes.settled (h : p.Completes trace) (elapsed : ℕ → ℕ) :
    p.Settled (lifecycleAfter elapsed trace).state (itemsOf trace) := by
  obtain ⟨items, event, hitems, hevent, hrest⟩ := h.items
  have hfails := p.fails_of_terminates _ hevent
  have hall : ∀ item ∈ items ++ [.ok event], p.isFailure item = false :=
    forall_mem_append.mpr ⟨hrest, forall_mem_singleton.mpr hfails⟩
  rw [h.state, hitems]
  refine ⟨nofun, by simp [isTerminator, hevent], by simp [isFailure, hfails], ?_⟩
  rintro ⟨-, item, hitem, hfailure⟩
  exact absurd hfailure (by simp [hall item hitem])

theorem Fails.settled (h : p.Fails trace) (elapsed : ℕ → ℕ) :
    p.Settled (lifecycleAfter elapsed trace).state (itemsOf trace) := by
  obtain ⟨items, event, hitems, hevent, hrest⟩ := h.items
  obtain ⟨_, hstate⟩ := h.state _
  have hterminates := terminates_eq_false_of_fails hevent
  have hall : ∀ item ∈ items ++ [.ok event], p.isTerminator item = false :=
    forall_mem_append.mpr ⟨hrest, forall_mem_singleton.mpr hterminates⟩
  rw [hstate, hitems]
  refine ⟨nofun, by simp [isTerminator, hterminates], by simp [isFailure, hevent], ?_⟩
  rintro ⟨⟨item, hitem, hterminator⟩, -⟩
  exact absurd hterminator (by simp [hall item hitem])

theorem Raises.not_settled (h : p.Raises trace) (elapsed : ℕ → ℕ) :
    ¬p.Settled (lifecycleAfter elapsed trace).state (itemsOf trace) :=
  fun hsettled => hsettled.not_pending (h.state _)

/-- The record is marked failed, and an event that is no error comes last. -/
def FailsUnannounced (p : StreamProtocol ε) (trace : List (StreamAction ε)) : Prop :=
  ∃ before error event, trace = before ++ [.update (.failed error), .event event] ∧
    (∀ a ∈ before, p.plain a = true) ∧ p.fails event = false

theorem FailsUnannounced.not_settled (h : p.FailsUnannounced trace) (elapsed : ℕ → ℕ) :
    ¬p.Settled (lifecycleAfter elapsed trace).state (itemsOf trace) := by
  obtain ⟨_, error, event, rfl, hbefore, hevent⟩ := h
  intro hsettled
  obtain ⟨_, hitem, hfailure⟩ := hsettled.failed.mp ⟨error, by
    rw [state_lifecycleAfter, findSome?_append, findSome?_mark?_of_plain hbefore]
    rfl⟩
  rw [itemsOf, filterMap_append] at hitem
  have hlast : (filterMap StreamAction.item?
      [.update (.failed error), .event event]).getLast? = some (.ok event) := rfl
  rw [getLast?_append] at hitem
  cases hitem
  exact absurd hfailure (by simp [isFailure, hevent])

/-- The record is marked completed, and an error comes last. -/
theorem not_settled_of_completed_error {before : List (StreamAction ε)} {error : AppError}
    (hbefore : ∀ a ∈ before, p.plain a = true) (elapsed : ℕ → ℕ) :
    let trace := before ++ [.update .completed, .error error]
    ¬p.Settled (lifecycleAfter elapsed trace).state (itemsOf trace) := by
  intro _ hsettled
  obtain ⟨_, hitem, hterminator⟩ := hsettled.completed.mp (by
    rw [state_lifecycleAfter, findSome?_append, findSome?_mark?_of_plain hbefore]
    rfl)
  have hlast : (filterMap StreamAction.item?
      [(.update .completed : StreamAction ε), .error error]).getLast? = some (.error error) := rfl
  rw [itemsOf, filterMap_append, getLast?_append] at hitem
  cases hitem
  cases hterminator

end StreamProtocol

end RouteSmith.Model
