import RouteSmith.Model.JavaGateway.Gateway
import RouteSmith.Verification.JavaGateway.Budgets

/-! # What a gateway's commands do

Each command moves the states of the reservations in one way at most, and each action of a gateway
changes one request at most.
-/

namespace RouteSmith.Model.JavaGateway

open Control Store Store.Txn Function

/-! ## The states of the reservations -/

def statusOf (budgets : Tables) (id : String) : Option ReservationStatus :=
  (budgets.lookup (.reservation id)).map (·.status)

/-- Only an open reservation can be closed. -/
def ReservationStatus.close (old new : ReservationStatus) : ReservationStatus :=
  if old = .reserved then new else old

/-- The reservation that a command closes, and the state it closes it with. -/
def Command.closes : Command → Option (String × ReservationStatus)
  | .settle reservationId _ => some (reservationId, .settled)
  | .release reservationId => some (reservationId, .released)
  | _ => none

/-- Whether the command in flight takes effect, whatever the pipeline gets to see of it. -/
def Event.takesEffect : Event → Bool
  | .answered _ _ => true
  | .faulted _ _ effect => effect

/-- A command that takes effect makes the reservation it makes, closes the one it closes, and leaves
the others as they are. -/
structure Effect (command : Command) (made : Option String) (before after : Tables) : Prop where
  made_eq : ∀ id, made = some id → statusOf before id = none ∧ statusOf after id = some .reserved
  closed_eq : ∀ id status, command.closes = some (id, status) →
    statusOf after id = (statusOf before id).map (·.close status)
  other_eq : ∀ id, made ≠ some id → command.closes.map (·.1) ≠ some id →
    statusOf after id = statusOf before id

theorem Effect.refl {command : Command} (h : command.closes = none) (budgets : Tables) :
    Effect command none budgets budgets :=
  ⟨nofun, by simp [h], fun _ _ _ => rfl⟩

theorem Effect.ne_none {command : Command} {made : Option String} {before after : Tables}
    {id : String} (h : Effect command made before after) (hthere : statusOf before id ≠ none) :
    made ≠ some id ∧ statusOf after id ≠ none := by
  have hmade : made ≠ some id := fun hmade => hthere (h.made_eq id hmade).1
  refine ⟨hmade, ?_⟩
  by_cases hid : command.closes.map (·.1) = some id
  · obtain ⟨⟨_, _⟩, hcloses, rfl⟩ := Option.map_eq_some_iff.mp hid
    rw [h.closed_eq _ _ hcloses]
    simpa using hthere
  · rwa [h.other_eq id hmade hid]

theorem statusOf_union (id : String) (w budgets : Tables) :
    statusOf (w ∪ budgets) id = (statusOf w id).or (statusOf budgets id) := by
  simp only [statusOf, lookup_union, Option.map_or]

section

variable {w budgets : Tables} {reservationId : String}

theorem Closed.effect {charged now : ℤ} {status : ReservationStatus} {command : Command}
    (h : Closed reservationId charged now status w budgets)
    (hcommand : command.closes = some (reservationId, status)) :
    Effect command none budgets (w ∪ budgets) := by
  refine ⟨nofun, fun id _ hcloses => ?_, fun id _ hother => ?_⟩
  · cases hcommand.symm.trans hcloses
    obtain ⟨_, hcurrent, ⟨hopen, hw⟩ | ⟨hclosed, hsame⟩⟩ := h.cases
    · simp [statusOf, hw, hcurrent, hopen, ReservationStatus.close,
        ReservationRow.close]
    · rw [statusOf_union]
      cases hw : w.lookup (.reservation reservationId) with
      | none => simp [statusOf, hw, hcurrent, hclosed, ReservationStatus.close]
      | some row =>
        cases (hsame _ row hw).symm.trans hcurrent
        simp [statusOf, hw, hcurrent, hclosed, ReservationStatus.close]
  · have hid : id ≠ reservationId := by
      rintro rfl
      exact hother (by rw [hcommand, Option.map_some])
    rw [statusOf_union, statusOf, h.others id hid, Option.map_none, Option.none_or]

theorem Reserved.effect {input : ReserveInput} {moment : Moment} {reservation : Reservation}
    (h : Reserved input moment reservation w budgets) :
    Effect (.reserve input) (some reservation.reservationId) budgets (w ∪ budgets) := by
  obtain ⟨_, hrow, hstatus⟩ := h.opened
  refine ⟨fun id hid => ?_, nofun, fun id hmade _ => ?_⟩
  · cases hid
    rw [h.id_eq, statusOf_union, statusOf, statusOf, hrow, h.fresh]
    exact ⟨rfl, congrArg some hstatus⟩
  · rw [statusOf_union]
    cases hw : w.lookup (.reservation id) with
    | none => simp [statusOf, hw]
    | some row' =>
      rcases h.others id row' hw with rfl | hbudgets
      · exact absurd (congrArg some h.id_eq) hmade
      · simp [statusOf, hw, hbudgets]

end

/-! ## Carrying out a command -/

section

variable {g : Gateway} {stores : Stores}

variable {command : Command} {event : Event}

theorem effect_close {h2 : Bool} {reservationId : String} {charged now : ℤ}
    {status : ReservationStatus} (h : Reached h2 stores.budgets) (hcharged : 0 ≤ charged)
    (hcommand : command.closes = some (reservationId, status))
    (hclosed : ∀ w, (close reservationId charged now status).run stores.budgets ∅ = .ok ((), w) →
      Reached h2 (w ∪ stores.budgets) ∧ Closed reservationId charged now status w stores.budgets) :
    let after := (stores.transact (close reservationId charged now status)).2
    Reached h2 after.budgets ∧ Effect command none stores.budgets after.budgets := by
  intro after
  cases hrow : stores.budgets.lookup (.reservation reservationId) with
  | some =>
    obtain ⟨w, hrun⟩ := h.exists_close hrow hcharged now status
    have hafter : after.budgets = w ∪ stores.budgets := by
      simp only [after, Stores.transact, hrun]
    rw [hafter]
    exact ⟨(hclosed w hrun).1, (hclosed w hrun).2.effect hcommand⟩
  | none =>
    have hnone : statusOf stores.budgets reservationId = none := by rw [statusOf, hrow]; rfl
    have hafter : after.budgets = stores.budgets := by
      cases hrun : (close reservationId charged now status).run stores.budgets ∅ with
      | error => simp only [after, Stores.transact, hrun]
      | ok result =>
        obtain ⟨_, hcurrent, -⟩ := (hclosed _ hrun).2.cases
        cases hrow.symm.trans hcurrent
    rw [hafter]
    refine ⟨h, nofun, fun _ _ hcloses => ?_, fun _ _ _ => rfl⟩
    cases hcommand.symm.trans hcloses
    rw [hnone, Option.map_none]

theorem effect_execute (h : Reached g.h2 stores.budgets) (moment : Moment)
    (response : UpstreamResponse) (command : Command) :
    let out := g.execute moment response stores command
    Reached g.h2 out.2.budgets ∧
      Effect command (reservationOf command out.1) stores.budgets out.2.budgets := by
  cases command with
  | find | record | upstream => exact ⟨h, .refl rfl _⟩
  | save =>
    simp only [Gateway.execute]
    split <;> exact ⟨h, .refl rfl _⟩
  | settle =>
    exact effect_close h (le_max_left _ _) rfl fun _ => h.settle
  | release =>
    exact effect_close h le_rfl rfl fun _ => h.release
  | reserve input =>
    simp only [Gateway.execute, Stores.transact]
    cases hrun : (reserve g.h2 input moment).run stores.budgets ∅ with
    | error => exact ⟨h, .refl rfl _⟩
    | ok =>
      obtain ⟨hreached, hreserved⟩ := h.reserve hrun
      exact ⟨hreached, hreserved.effect⟩

theorem carryOut_takesEffect (h : Reached g.h2 stores.budgets) (hevent : event.takesEffect = true) :
    let out := g.carryOut command event stores
    Reached g.h2 out.stores.budgets ∧
      Effect command out.made stores.budgets out.stores.budgets := by
  cases event with
  | answered moment response => exact effect_execute h moment response command
  | faulted fault moment =>
    cases hevent
    exact effect_execute h _ _ _

theorem carryOut_unchanged (hevent : event.takesEffect = false) :
    (g.carryOut command event stores).stores = stores ∧
      (g.carryOut command event stores).made = none := by
  cases event with
  | answered => cases hevent
  | faulted =>
    cases hevent
    exact ⟨rfl, rfl⟩

/-- A reservation that has been made but not answered with has been lost in a fault. -/
theorem carryOut_made {id : String} (hmade : (g.carryOut command event stores).made = some id) :
    ∃ input, command = .reserve input ∧ event.takesEffect = true ∧
      ((∃ moment response, event = .answered moment response ∧
        reservationOf command (g.carryOut command event stores).result = some id) ∨
        ∃ fault moment, event = .faulted fault moment true) := by
  have hcommand : ∀ result, reservationOf command result = some id →
      ∃ input, command = .reserve input := by
    cases command <;> simp_all [reservationOf]
  cases event with
  | answered moment response =>
    obtain ⟨input, hinput⟩ := hcommand _ hmade
    exact ⟨input, hinput, rfl, .inl ⟨moment, response, rfl, hmade⟩⟩
  | faulted fault moment effect =>
    cases effect with
    | false => cases hmade
    | true =>
      obtain ⟨input, hinput⟩ := hcommand _ hmade
      exact ⟨input, hinput, rfl, .inr ⟨fault, moment, rfl⟩⟩

end

/-! ## The tables after a command -/

section

variable {g : Gateway} {stores : Stores} {command : Command} {event : Event} {id : String}

section

variable (h : Reached g.h2 stores.budgets)

include h

theorem reached_carryOut : Reached g.h2 (g.carryOut command event stores).stores.budgets := by
  cases hevent : event.takesEffect with
  | false => rwa [(carryOut_unchanged hevent).1]
  | true => exact (carryOut_takesEffect h hevent).1

theorem carryOut_ne_none (hthere : statusOf stores.budgets id ≠ none) :
    statusOf (g.carryOut command event stores).stores.budgets id ≠ none := by
  cases hevent : event.takesEffect with
  | false => rwa [(carryOut_unchanged hevent).1]
  | true => exact ((carryOut_takesEffect h hevent).2.ne_none hthere).2

theorem carryOut_made_eq (hmade : (g.carryOut command event stores).made = some id) :
    statusOf stores.budgets id = none ∧
      statusOf (g.carryOut command event stores).stores.budgets id = some .reserved := by
  obtain ⟨-, -, hevent, -⟩ := carryOut_made hmade
  exact (carryOut_takesEffect h hevent).2.made_eq id hmade

theorem there_carryOut {made : List String}
    (hthere : ∀ id ∈ made, statusOf stores.budgets id ≠ none)
    (hid : id ∈ (g.carryOut command event stores).made.toList ++ made) :
    statusOf (g.carryOut command event stores).stores.budgets id ≠ none := by
  by_cases hmade : (g.carryOut command event stores).made = some id
  · rw [(carryOut_made_eq h hmade).2]
    nofun
  · exact carryOut_ne_none h (hthere id (by simpa [hmade] using hid))

end

end

/-! ## One action -/

def Phase.isEnded : Phase → Bool
  | .ended _ => true
  | _ => false

/-- What an action can do. -/
inductive StepCases (g : Gateway) (s : State) : Action → State → Prop
  | same (action : Action) : StepCases g s action s
  | submit {i : ℕ} (request : ClientRequest) (h : s.requests i = none) :
    StepCases g s (.submit i request)
      (s.put i s.stores ⟨request, [], [], .of (g.exchange request), []⟩)
  | perform {i : ℕ} {entry : Entry} {call : Call}
      {next : Except Throwable (Answer call.command) → Flow ProxyResponse} (event : Event)
      (h : s.requests i = some entry) (hphase : entry.phase = .running (.call call next)) :
    StepCases g s (.perform i event)
      (g.advance s i call.command event fun r => { entry with phase := .of (next r) })
  | close {i : ℕ} {entry : Entry} {command : Command} {rest : List Command} {outcome : Outcome}
      (event : Event) (h : s.requests i = some entry)
      (hphase : entry.phase = .closing (command :: rest) outcome) :
    StepCases g s (.perform i event) (g.advance s i command event fun r =>
      { entry with phase := .ofTask (goesOn rest r) outcome })
  | goOn {i task : ℕ} {entry : Entry} {command : Command} {rest : List Command} (event : Event)
      (h : s.requests i = some entry) (htask : entry.tasks[task]? = some (command :: rest)) :
    StepCases g s (.goOn i task event) (g.advance s i command event fun r =>
      { entry with tasks := entry.tasks.set task (goesOn rest r) })
  | timeOut {i : ℕ} {entry : Entry} {call : Call}
      {next : Except Throwable (Answer call.command) → Flow ProxyResponse}
      (h : s.requests i = some entry) (hphase : entry.phase = .running (.call call next))
      (htimed : call.timed = true) :
    StepCases g s (.timeOut i) (s.put i s.stores { entry with
      phase := .of (next (.error .timeout))
      tasks := call.left :: entry.tasks })
  | cancel {i : ℕ} {entry : Entry} {call : Call}
      {next : Except Throwable (Answer call.command) → Flow ProxyResponse}
      (h : s.requests i = some entry) (hphase : entry.phase = .running (.call call next)) :
    StepCases g s (.cancel i)
      (s.put i s.stores { entry with phase := .ofTask call.left .cancelled })
  | endStream {i : ℕ} {entry : Entry} {stream : RawStream} (ending : StreamEnd)
      (h : s.requests i = some entry) (hphase : entry.phase = .streaming stream) :
    StepCases g s (.endStream i ending)
      (s.put i s.stores { entry with phase := .ofTask (stream.onEnd ending) .streamed })

theorem stepCases (g : Gateway) (s : State) (action : Action) :
    StepCases g s action (g.step s action) := by
  cases action with
  | submit i request =>
    simp only [Gateway.step]
    split
    · exact .same _
    next h => exact .submit _ h
  | perform i event =>
    simp only [Gateway.step]
    split
    · exact .same _
    next entry h =>
      split
      next hphase => exact .perform _ h hphase
      next hphase => exact .close _ h hphase
      · exact .same _
  | goOn i task event =>
    simp only [Gateway.step]
    split
    · exact .same _
    next entry h =>
      split
      next htask => exact .goOn _ h htask
      · exact .same _
  | timeOut i =>
    simp only [Gateway.step]
    split
    · exact .same _
    next entry h =>
      split
      next hphase =>
        split
        next htimed => exact .timeOut h hphase htimed
        · exact .same _
      · exact .same _
  | cancel i =>
    simp only [Gateway.step]
    split
    · exact .same _
    next entry h =>
      split
      next hphase => exact .cancel h hphase
      · exact .same _
  | endStream i ending =>
    simp only [Gateway.step]
    split
    · exact .same _
    next entry h =>
      split
      next hphase => exact .endStream _ h hphase
      · exact .same _

theorem requests_put {s : State} {i j : ℕ} {stores : Stores} {entry new : Entry}
    (h : (s.put i stores entry).requests j = some new) :
    j = i ∧ new = entry ∨ j ≠ i ∧ s.requests j = some new := by
  by_cases hji : j = i
  · subst hji
    cases (update_self ..).symm.trans h
    exact .inl ⟨rfl, rfl⟩
  · exact .inr ⟨hji, (update_of_ne hji ..).symm.trans h⟩

def Action.index : Action → ℕ
  | .submit i _ => i
  | .perform i _ => i
  | .goOn i _ _ => i
  | .timeOut i => i
  | .cancel i => i
  | .endStream i _ => i

theorem step_requests_of_ne (g : Gateway) (s : State) {action : Action} {j : ℕ}
    (h : action.index ≠ j) : (g.step s action).requests j = s.requests j := by
  have hcases := stepCases g s action
  generalize g.step s action = s' at hcases
  cases hcases with
  | same => rfl
  | _ => exact update_of_ne (symm h) ..

end RouteSmith.Model.JavaGateway
