import RouteSmith.Verification.JavaGateway.Effects
import RouteSmith.Verification.JavaGateway.Translation
import RouteSmith.Control.Runs
import Mathlib.Data.Set.Insert

/-! # The reservations of a gateway's requests

What becomes of the budget reservation that a request makes, whichever way its pipeline ends.
-/

namespace RouteSmith.Model.JavaGateway

open Control Control.Pipeline Store Store.Txn Command Set
open Phase hiding closing

/-! ## Along a pipeline -/

/-- The reservation a command closes, as a set. -/
def Command.closing (command : Command) : Set String := {id | command.closes.map (·.1) = some id}

/-- The reservations that a task closes. -/
def closedBy (task : List Command) : Set String := {id | ∃ command ∈ task, id ∈ command.closing}

/-- The reservations a request holds, after an answer. A close counts as done if it succeeds; and so
does the `release` that follows the attempts, however it is answered. -/
def noteHeld (held : Set String) (timed : Bool) :
    (command : Command) → Except Throwable (Answer command) → Set String
  | .reserve _, .ok reservation => insert reservation.reservationId held
  | .settle reservationId _, .ok _ => held \ {reservationId}
  | .release reservationId, .ok _ => held \ {reservationId}
  | .release reservationId, .error _ => if timed then held else held \ {reservationId}
  | _, _ => held

variable {held held' : Set String}

theorem noteHeld_mono (timed : Bool) (command : Command) (r : Except Throwable (Answer command))
    (h : held' ≤ held) : noteHeld held' timed command r ≤ noteHeld held timed command r := by
  cases command <;> cases r <;> cases timed <;>
    first
    | exact h
    | exact insert_subset_insert h
    | exact sdiff_subset_sdiff_left h

theorem noteHeld_timed_error (command : Command) (error : Throwable) :
    noteHeld held true command (.error error) = held := by
  cases command <;> rfl

/-- Watches the reservations held by a request. None is made behind the back of a timeout. -/
abbrev heldMonitor : Monitor Call (fun call => Answer call.command) Throwable (Set String) :=
  ⟨fun _ call => call.timed = true → ∀ input, .reserve input ∉ call.left, fun _ _ _ => True,
    fun held call => noteHeld held call.timed call.command⟩

/-- The reservation that a response leaves to the end of its body. -/
def ProxyResponse.handsOver (response : ProxyResponse) : Set String :=
  match response.body with
  | .raw stream => {stream.reservation.reservationId}
  | _ => ∅

/-- A pipeline ends with no reservation held but what its response hands over. -/
abbrev Closes (flow : Flow ProxyResponse) (held : Set String) : Prop :=
  Along heldMonitor (fun held response => held ⊆ response.handsOver)
    (fun held _ => held = ∅) flow held

/-- A pipeline ends well if it answers, and keeps to one reservation if it fails. -/
abbrev ClosesOrFails (id : String) (flow : Flow ProxyResponse) (held : Set String) : Prop :=
  Along heldMonitor (fun held response => held ⊆ response.handsOver)
    (fun held _ => held ⊆ {id}) flow held

section Flows

variable {g : Gateway} {r : ClientRequest} {reservation : Reservation} {held : Set String}

theorem closesOrFails_completeBufferedAttempt (route : Route) (response : UpstreamResponse)
    (hheld : held ⊆ {reservation.reservationId}) :
    ClosesOrFails reservation.reservationId
      (g.completeBufferedAttempt r route reservation response) held := by
  have hclosed := sdiff_eq_empty.mpr hheld
  have hnone := hclosed ▸ empty_subset
  simp only [Gateway.completeBufferedAttempt]
  by_cases hok : successful response.status = true
  · by_cases hstream : r.streamRequested = true
    · simp only [hok, hstream, if_true]
      simp only [blockingRun, along_bind]
      refine along_perform (by simp) (fun _ _ => ?_) fun _ _ => hheld
      exact along_perform (by simp) (fun _ _ => hnone _) fun _ _ => hheld
    · simp only [hok, hstream, if_true, Bool.false_eq_true, if_false]
      simp only [blockingRun, along_bind]
      refine along_perform (by simp) (fun _ _ => ?_) fun _ _ => hheld
      refine along_perform (by simp) (fun _ _ => ?_) fun _ _ => hheld
      exact along_perform (by simp) (fun _ _ => hnone _) fun _ _ => hnone _
  · simp only [hok, Bool.false_eq_true, if_false]
    simp only [blockingRun, along_bind]
    refine along_perform (by simp) (fun _ _ => ?_) fun _ _ => hheld
    exact along_perform (by simp) (fun _ _ => hnone _) fun _ _ => hheld

/-- The attempts of a request keep to what an upstream's response does not change, if what follows a
response does. -/
theorem along_attempt {σ : Type}
    {M : Monitor Call (fun call => Answer call.command) Throwable σ}
    {Q : σ → ProxyResponse → Prop} {P : σ → Prop}
    (hupstream : ∀ {s uri request}, P s → M.permits s ⟨upstream uri request, [], true⟩ ∧
      ∀ result, P (M.note s ⟨upstream uri request, [], true⟩ result))
    (hraw : ∀ {s usage response}, P s → r.streamRequested = true →
      response.body = .raw ⟨reservation, usage⟩ → Q s response)
    (hbuffered : ∀ {s} route response, P s →
      Along M Q (fun s _ => P s) (g.completeBufferedAttempt r route reservation response) s)
    {routes : List Route} {attempts : Flow ProxyResponse}
    (h : g.attempt r reservation routes = .ok attempts) {s : σ} (hs : P s) :
    Along M Q (fun s _ => P s) attempts s := by
  induction routes generalizing attempts s with
  | nil => cases h
  | cons route rest ih =>
    have hrest : ∀ {s}, P s →
        Along M Q (fun s _ => P s) (.assembled (g.attempt r reservation rest)) s := by
      intro s hs
      cases hattempt : g.attempt r reservation rest with
      | error => exact hs
      | ok => exact ih hattempt hs
    simp only [Gateway.attempt, bind_eq_ok_iff, pure_eq_ok] at h
    obtain ⟨⟨_, _⟩, -, rfl⟩ := h
    refine (along_onErrorResume _ _).mpr ?_
    refine .mono (E := fun s _ => P s) ?_ (fun _ _ h => h) fun s _ hs => ?_
    · rw [along_bind]
      refine along_perform (hupstream hs).1 (fun response _ => ?_) fun _ _ => (hupstream hs).2 _
      have hs := (hupstream hs).2 (.ok response)
      split
      · exact hs
      · split
        next hstream =>
          exact hraw hs (Bool.and_eq_true_iff.mp (Bool.and_eq_true_iff.mp hstream).1).1 rfl
        · exact hbuffered _ _ hs
    · split
      · exact hrest hs
      · split
        · exact hrest hs
        · exact hs

theorem closesOrFails_attempt {routes : List Route} {attempts : Flow ProxyResponse}
    (h : g.attempt r reservation routes = .ok attempts)
    (hheld : held ⊆ {reservation.reservationId}) :
    ClosesOrFails reservation.reservationId attempts held := by
  refine along_attempt (fun hs => ⟨fun _ _ => List.not_mem_nil, fun _ => hs⟩) (fun _ _ hbody => ?_)
    closesOrFails_completeBufferedAttempt h hheld
  rwa [ProxyResponse.handsOver, hbody]

/-- A plan has a first route, and the attempt of it can be put together. -/
def FirstRouteBuilds (g : Gateway) (r : ClientRequest) : Prop :=
  ∀ routes, r.plan = .ok routes →
    ∃ route built, routes.head? = some route ∧ g.assemble r route = .ok built

theorem FirstRouteBuilds.exists_attempt (h : FirstRouteBuilds g r) {routes : List Route}
    (hplan : r.plan = .ok routes) (reservation : Reservation) :
    ∃ attempts, g.attempt r reservation routes = .ok attempts := by
  obtain ⟨_, _, hroute, hbuilt⟩ := h _ hplan
  obtain ⟨_, rfl⟩ := List.head?_eq_some_iff.mp hroute
  simp only [Gateway.attempt, hbuilt]
  exact ⟨_, rfl⟩

theorem closes_exchange (hfirst : FirstRouteBuilds g r) : Closes (g.exchange r) ∅ := by
  unfold Gateway.exchange
  split
  · rfl
  simp only [along_bind]
  refine along_perform (absurd · Bool.false_ne_true) (fun cached _ => ?_) fun _ _ => rfl
  cases cached with
  | some =>
    simp only [Gateway.replay, blockingRun, along_bind]
    exact along_perform (absurd · Bool.false_ne_true) (fun _ _ => empty_subset _) fun _ _ => rfl
  | none =>
    simp only [Gateway.exchangeUncached, along_bind]
    cases hplan : r.plan with
    | error => rfl
    | ok =>
      refine along_perform (absurd · Bool.false_ne_true) (fun reservation _ => ?_) fun _ _ => ?_
      · obtain ⟨_, hattempts⟩ := hfirst.exists_attempt hplan reservation
        have hheld : insert reservation.reservationId ∅ ⊆
            ({reservation.reservationId} : Set String) := by simp
        simp only [hattempts, along_onErrorResume]
        refine (closesOrFails_attempt hattempts hheld).mono (fun _ _ h => h) fun held _ hheld => ?_
        have hclosed := sdiff_eq_empty.mpr hheld
        simp only [blockingRun, along_bind, along_onErrorResume]
        exact along_perform (absurd · Bool.false_ne_true) (fun _ _ => hclosed) fun _ _ => hclosed
      · rfl

end Flows

/-! ## The reservations held in the tables -/

/-- Those of the reservations made for a request that are still open. -/
def heldBy (budgets : Tables) (made : List String) : Set String :=
  {id | id ∈ made ∧ statusOf budgets id = some .reserved}

/-- No reservation gets out of sight: one that the pipeline sees fail has not been made, and the
release that follows the attempts takes effect. -/
def Event.Sure (event : Event) (timed : Bool) : Command → Prop
  | .reserve _ => ∀ fault moment, event ≠ .faulted fault moment true
  | .release _ => timed = false → event.takesEffect = true
  | _ => True

/-- A command of a task that nobody waits for keeps the reservations of its request in sight: it
makes none; what it is to close it closes; and it does not fail before what the rest is to close. -/
structure GoesThrough (g : Gateway) (stores : Stores) (command : Command) (rest : List Command)
    (event : Event) : Prop where
  made : (g.carryOut command event stores).made = none
  closes : command.closes.isSome → event.takesEffect = true
  rest : (closedBy rest).Nonempty → ∃ a, (g.carryOut command event stores).result = .ok a

section Tables

variable {g : Gateway} {stores : Stores} {command : Command} {event : Event} {made : List String}

theorem Effect.closed_or_same {made : Option String} {before after : Tables}
    (h : Effect command made before after) {id : String} (hmade : made ≠ some id)
    (hopen : statusOf after id = some .reserved) :
    statusOf before id = some .reserved ∧ id ∉ command.closing := by
  by_cases hid : command.closes.map (·.1) = some id
  · -- a closed reservation is not open
    obtain ⟨⟨_, status⟩, hcloses, rfl⟩ := Option.map_eq_some_iff.mp hid
    have hstatus : status ≠ .reserved := by
      cases command <;> simp_all [closes] <;> simp [← hcloses.2]
    rw [h.closed_eq _ _ hcloses, Option.map_eq_some_iff] at hopen
    obtain ⟨_, -, hold⟩ := hopen
    rw [ReservationStatus.close] at hold
    split at hold
    · exact absurd hold hstatus
    · contradiction
  · exact ⟨(h.other_eq id hmade hid).symm.trans hopen, hid⟩

theorem takesEffect_of_ok {a : Answer command}
    (hok : (g.carryOut command event stores).result = .ok a) : event.takesEffect = true := by
  cases event with
  | answered => rfl
  | faulted _ _ effect => cases effect <;> cases hok

section

variable (h : Reached g.h2 stores.budgets)

include h

theorem heldBy_carryOut {id : String}
    (hid : id ∈ heldBy (g.carryOut command event stores).stores.budgets
      ((g.carryOut command event stores).made.toList ++ made)) :
    (g.carryOut command event stores).made = some id ∨
      id ∈ heldBy stores.budgets made ∧ (event.takesEffect = true → id ∉ command.closing) := by
  obtain ⟨hmem, hopen⟩ := hid
  by_cases hmade : (g.carryOut command event stores).made = some id
  · exact .inl hmade
  have hmem : id ∈ made := by simpa [hmade] using hmem
  cases hevent : event.takesEffect with
  | false =>
    rw [(carryOut_unchanged hevent).1] at hopen
    exact .inr ⟨⟨hmem, hopen⟩, nofun⟩
  | true =>
    obtain ⟨hbefore, hother⟩ := (carryOut_takesEffect h hevent).2.closed_or_same hmade hopen
    exact .inr ⟨⟨hmem, hbefore⟩, fun _ => hother⟩

theorem heldBy_carryOut_others (hthere : ∀ id ∈ made, statusOf stores.budgets id ≠ none) :
    heldBy (g.carryOut command event stores).stores.budgets made ⊆ heldBy stores.budgets made := by
  cases hevent : event.takesEffect with
  | false =>
    rw [(carryOut_unchanged hevent).1]
  | true =>
    have heffect : Effect command _ _ _ := (carryOut_takesEffect h hevent).2
    refine fun id hid => ⟨hid.1, ?_⟩
    exact (heffect.closed_or_same (heffect.ne_none (hthere id hid.1)).1 hid.2).1

/-- What is held in the tables is no more than what the notes say. -/
theorem heldBy_subset_noteHeld {timed : Bool} (hsure : event.Sure timed command) :
    heldBy (g.carryOut command event stores).stores.budgets
      ((g.carryOut command event stores).made.toList ++ made) ⊆
        noteHeld (heldBy stores.budgets made) timed command
          (g.carryOut command event stores).result := by
  intro id hid
  rcases heldBy_carryOut h hid with hmade | ⟨hheld, hother⟩
  · obtain ⟨input, rfl, -, ⟨moment, response, rfl, hresult⟩ | ⟨_, moment, rfl⟩⟩ :=
      carryOut_made hmade
    · cases hok : (g.carryOut (.reserve input) (.answered moment response) stores).result with
      | error =>
        rw [hok] at hresult
        cases hresult
      | ok =>
        rw [hok] at hresult
        cases hresult
        exact mem_insert _ _
    · exact absurd rfl (hsure _ _)
  · -- an open reservation can only have been closed by a command that has taken effect
    have hclosing : ∀ reservationId status, command.closes = some (reservationId, status) →
        event.takesEffect = true → id ∈ heldBy stores.budgets made \ {reservationId} := by
      rintro reservationId _ hcloses hevent
      refine ⟨hheld, ?_⟩
      rintro rfl
      exact hother hevent (by rw [closing, mem_ofPred_eq, hcloses, Option.map_some])
    cases command with
    | reserve input =>
      cases (g.carryOut (.reserve input) event stores).result with
      | error => exact hheld
      | ok => exact mem_insert_of_mem _ hheld
    | settle reservationId actualTokens =>
      cases hok : (g.carryOut (.settle reservationId actualTokens) event stores).result with
      | error => exact hheld
      | ok => exact hclosing _ _ rfl (takesEffect_of_ok hok)
    | release reservationId =>
      cases hok : (g.carryOut (.release reservationId) event stores).result with
      | error =>
        cases timed with
        | true => exact hheld
        | false => exact hclosing _ _ rfl (hsure rfl)
      | ok => exact hclosing _ _ rfl (takesEffect_of_ok hok)
    | _ => exact hheld

theorem GoesThrough.heldBy_subset {rest : List Command}
    (hthrough : GoesThrough g stores command rest event)
    (hheld : heldBy stores.budgets made ⊆ closedBy (command :: rest)) :
    heldBy (g.carryOut command event stores).stores.budgets
      ((g.carryOut command event stores).made.toList ++ made) ⊆
        closedBy (goesOn rest (g.carryOut command event stores).result) := by
  intro id hid
  rcases heldBy_carryOut h hid with hmade | ⟨hbefore, hother⟩
  · cases hthrough.made.symm.trans hmade
  obtain ⟨closer, hcloser, hclosing⟩ := hheld hbefore
  rcases List.mem_cons.mp hcloser with rfl | hcloser
  · obtain ⟨_, hcloses, -⟩ := Option.map_eq_some_iff.mp hclosing
    exact absurd hclosing (hother (hthrough.closes (by rw [hcloses]; rfl)))
  · have hrest : id ∈ closedBy rest := ⟨closer, hcloser, hclosing⟩
    obtain ⟨_, hok⟩ := hthrough.rest ⟨id, hrest⟩
    rw [hok]
    exact hrest

end

end Tables

/-! ## Phases -/

/-- A phase goes on to an end with no reservation held. -/
def Phase.Closes : Phase → Set String → Prop
  | .running flow, held => JavaGateway.Closes flow held
  | .streaming stream, held => held ⊆ {stream.reservation.reservationId}
  | .closing task _, held => held ⊆ closedBy task
  | .ended _, held => held = ∅

theorem Phase.closes_of {flow : Flow ProxyResponse} (h : JavaGateway.Closes flow held) :
    (of flow).Closes held := by
  cases flow with
  | done response =>
    obtain ⟨_, body, _, _⟩ := response
    cases body with
    | raw => exact h
    | json | synthetic => exact subset_empty_iff.mp h
  | fail | call => exact h

theorem Phase.closes_ofTask {task : List Command} (outcome : Outcome) (h : held ⊆ closedBy task) :
    (ofTask task outcome).Closes held := by
  cases task with
  | nil => exact eq_empty_of_forall_notMem fun _ hid => by simpa [closedBy] using h hid
  | cons => exact h

theorem RawStream.subset_closedBy_onEnd (stream : RawStream)
    (h : held ⊆ {stream.reservation.reservationId}) (ending : StreamEnd) :
    held ⊆ closedBy (stream.onEnd ending) := by
  intro id hid
  cases h hid
  cases ending <;> exact ⟨_, List.mem_cons_self .., rfl⟩

theorem Phase.Closes.anti {phase : Phase} (h : phase.Closes held) (hle : held' ⊆ held) :
    phase.Closes held' := by
  have hempty : ∀ {s s' : Set String}, s' ≤ s → s = ∅ → s' = ∅ :=
    fun hle hs => subset_empty_iff.mp (hs ▸ hle)
  cases phase with
  | running =>
    exact .of_le h hle (fun _ _ => id) (fun _ _ _ => id) (fun _ => noteHeld_mono _ _)
      (fun _ hle => hle.trans) fun _ => hempty
  | streaming | closing => exact hle.trans h
  | ended => exact hempty hle h

/-! ## Runs -/

/-- What keeps a step from leaving a reservation behind: the first attempt can be put together; no
fault gets a reservation out of sight; and a client that goes away leaves no open reservation but
what the task in flight closes. -/
def Careful (g : Gateway) (s : State) : Action → Prop
  | .submit _ request => FirstRouteBuilds g request
  | .perform i event => ∀ entry, s.requests i = some entry →
    (∀ call next, entry.phase = .running (.call call next) → event.Sure call.timed call.command) ∧
    (∀ command rest outcome, entry.phase = .closing (command :: rest) outcome →
      GoesThrough g s.stores command rest event)
  | .cancel i => ∀ entry call next, s.requests i = some entry →
    entry.phase = .running (.call call next) →
      heldBy s.stores.budgets entry.made ⊆ closedBy call.left
  | _ => True

/-- The reservations made for a request are there, and will be closed when it ends. -/
structure Entry.Kept (stores : Stores) (entry : Entry) : Prop where
  there : ∀ id ∈ entry.made, statusOf stores.budgets id ≠ none
  closes : entry.phase.Closes (heldBy stores.budgets entry.made)
  tasks : ∀ task ∈ entry.tasks, ∀ input, .reserve input ∉ task

structure Kept (g : Gateway) (s : State) : Prop where
  reached : Reached g.h2 s.stores.budgets
  entries : ∀ i entry, s.requests i = some entry → entry.Kept s.stores

section Runs

variable {g : Gateway} {s : State}

theorem Kept.put (h : Kept g s) {i : ℕ} {entry : Entry} (hentry : entry.Kept s.stores) :
    Kept g (s.put i s.stores entry) := by
  refine ⟨h.reached, fun j _ hj => ?_⟩
  rcases requests_put hj with ⟨-, rfl⟩ | ⟨-, hj⟩
  · exact hentry
  · exact h.entries j _ hj

theorem Kept.advance (h : Kept g s) {i : ℕ} {entry new : Entry} {command : Command} {event : Event}
    {next : Except Throwable (Answer command) → Entry} (hentry : s.requests i = some entry)
    (hnew : next (g.carryOut command event s.stores).result = new)
    (hmade : new.made = entry.made)
    (hphase : new.phase.Closes (heldBy (g.carryOut command event s.stores).stores.budgets
      ((g.carryOut command event s.stores).made.toList ++ entry.made)))
    (htasks : ∀ task ∈ new.tasks, ∀ input, .reserve input ∉ task) :
    Kept g (g.advance s i command event next) := by
  refine ⟨reached_carryOut h.reached, fun j _ hj => ?_⟩
  rcases requests_put hj with ⟨rfl, rfl⟩ | ⟨-, hj⟩
  · rw [hnew, hmade]
    exact ⟨fun _ => there_carryOut h.reached (h.entries j _ hentry).there, hphase, htasks⟩
  · have hkept := h.entries j _ hj
    exact ⟨fun id hid => carryOut_ne_none h.reached (hkept.there id hid),
      hkept.closes.anti (heldBy_carryOut_others h.reached hkept.there), hkept.tasks⟩

theorem Kept.step (h : Kept g s) {action : Action} (hcareful : Careful g s action) :
    Kept g (g.step s action) := by
  have hcases := stepCases g s action
  generalize g.step s action = s' at hcases
  cases hcases with
  | same => exact h
  | submit =>
    refine h.put ⟨nofun, closes_of ?_, nofun⟩
    have hheld : heldBy s.stores.budgets [] = ∅ := by simp [heldBy]
    exact hheld ▸ closes_exchange hcareful
  | perform event hentry hphase =>
    have hkept := h.entries _ _ hentry
    have hcloses := hkept.closes
    rw [hphase] at hcloses
    have hsure := (hcareful _ hentry).1 _ _ hphase
    refine h.advance hentry rfl rfl (closes_of ?_) hkept.tasks
    have hnext : ∀ r, (running _).Closes _ := fun r => hcloses.2 r trivial
    exact (hnext _).anti (heldBy_subset_noteHeld h.reached hsure)
  | close event hentry hphase =>
    have hkept := h.entries _ _ hentry
    have hcloses := hkept.closes
    rw [hphase] at hcloses
    have hthrough := (hcareful _ hentry).2 _ _ _ hphase
    exact h.advance hentry rfl rfl
      (closes_ofTask _ (hthrough.heldBy_subset h.reached hcloses)) hkept.tasks
  | @goOn i task entry command rest event hentry htask =>
    have hkept := h.entries _ _ hentry
    have hnone : ∀ input, .reserve input ∉ command :: rest :=
      hkept.tasks _ (List.mem_of_getElem? htask)
    refine h.advance hentry rfl rfl (hkept.closes.anti fun id hid => ?_) fun left hleft => ?_
    · -- a task without a reservation to make opens none
      rcases heldBy_carryOut h.reached hid with hmade | ⟨hbefore, -⟩
      · obtain ⟨input, rfl, -⟩ := carryOut_made hmade
        exact absurd (List.mem_cons_self ..) (hnone input)
      · exact hbefore
    · rcases List.mem_or_eq_of_mem_set hleft with hleft | rfl
      · exact hkept.tasks _ hleft
      · cases (g.carryOut command event s.stores).result with
        | error => exact fun _ => List.not_mem_nil
        | ok => exact fun input hinput => hnone input (List.mem_cons_of_mem _ hinput)
  | timeOut hentry hphase htimed =>
    have hkept := h.entries _ _ hentry
    obtain ⟨hpermits, hnext⟩ := hphase ▸ hkept.closes
    have hnext := hnext (.error .timeout) trivial
    simp only [htimed, noteHeld_timed_error] at hnext
    refine h.put ⟨hkept.there, closes_of hnext, fun task htask => ?_⟩
    rcases List.mem_cons.mp htask with rfl | htask
    · exact hpermits htimed
    · exact hkept.tasks _ htask
  | cancel hentry hphase =>
    have hkept := h.entries _ _ hentry
    have hheld := hcareful _ _ _ hentry hphase
    exact h.put ⟨hkept.there, closes_ofTask _ hheld, hkept.tasks⟩
  | endStream ending hentry hphase =>
    have hkept := h.entries _ _ hentry
    have hcloses := hkept.closes
    rw [hphase] at hcloses
    exact h.put ⟨hkept.there, closes_ofTask _ (RawStream.subset_closedBy_onEnd _ hcloses _),
      hkept.tasks⟩

theorem kept_initial (g : Gateway) : Kept g .initial := ⟨.empty _, fun _ _ h => nomatch h⟩

/-- Whatever requests a gateway gets and however their commands are carried out side by side: if
each step is a careful one, then a request that has ended has none of its reservations left open. -/
theorem reservations_closed {actions : List Action}
    (hmeets : Meets g.step (Careful g) .initial actions) {i : ℕ} {entry : Entry}
    (hentry : (runs g.step .initial actions).requests i = some entry)
    (hended : entry.phase.isEnded = true) :
    ∀ id ∈ entry.made, statusOf (runs g.step .initial actions).stores.budgets id = some .settled ∨
        statusOf (runs g.step .initial actions).stores.budgets id = some .released := by
  have hkept := runs_invariant_of_meets (fun _ _ hcareful h => h.step hcareful) hmeets
    (kept_initial g)
  obtain ⟨hthere, hcloses⟩ := hkept.entries i _ hentry
  intro id hid
  cases hphase : entry.phase with
  | ended =>
    rw [hphase] at hcloses
    have hopen := fun hopen => notMem_empty id (hcloses ▸ (⟨hid, hopen⟩))
    cases hstatus : statusOf (runs g.step .initial actions).stores.budgets id with
    | none => exact absurd hstatus (hthere id hid)
    | some status => cases status <;> simp_all
  | _ => simp [hphase, isEnded] at hended

end Runs

def sampleGateway : Gateway := ⟨sampleMapper, id, false, 1000⟩

/-- A request of an OpenAI client for which one provider is planned. -/
def sampleClientRequest (protocol : Protocol) (cap : ℤ) : ClientRequest where
  clientProtocol := .openai
  request := cappedRequest "max_tokens" cap
  idempotencyKey := none
  clientKeyId := "key_1"
  tenantId := "default"
  requestId := "req_1"
  monthlyLimit := 100000
  plan := .ok [⟨"gpt", "gpt", ⟨"p", some "http://p", protocol⟩⟩]

def sampleAnswer (i : ℕ) : Action :=
  .perform i (.answered ⟨"2026-01", 1, "r1"⟩ ⟨200, "", "", 0⟩)

/-- What goes on of a request when its client goes away. -/
def Phase.left : Phase → List Command
  | .running (.call waiting _) => waiting.left
  | .closing task _ => task
  | _ => []

/-- Of a task that nobody waits for, a command that is answered goes through. -/
def Phase.answerable : Phase → Bool
  | .closing (.record _ :: _) _ => true
  | .closing (.reserve _ :: _) _ => false
  | .closing (_ :: rest) _ => rest.all (·.closes.isNone)
  | _ => true

theorem careful_sampleAnswer {g : Gateway} {s : State} {i : ℕ}
    (h : (s.requests i).all (·.phase.answerable) = true) : Careful g s (sampleAnswer i) := by
  intro entry hentry
  rw [hentry, Option.all_some] at h
  refine ⟨fun call _ _ => ?_, fun command rest _ hphase => ?_⟩
  · cases call.command with
    | reserve => exact nofun
    | release => exact fun _ => rfl
    | _ => trivial
  rw [hphase] at h
  have hrest : rest.all (·.closes.isNone) = true → ¬(closedBy rest).Nonempty := by
    rintro hall ⟨id, closer, hcloser, hid⟩
    have hnone := List.all_eq_true.mp hall closer hcloser
    rw [Option.isNone_iff_eq_none] at hnone
    rw [closing, hnone] at hid
    cases hid
  cases command with
  | record => exact ⟨rfl, fun _ => rfl, fun _ => ⟨(), rfl⟩⟩
  | reserve => cases h
  | find | upstream | settle | save | release =>
    exact ⟨rfl, fun _ => rfl, fun hne => absurd hne (hrest h)⟩

theorem careful_cancel {g : Gateway} {s : State} {i : ℕ}
    (h : (s.requests i).all (fun entry => entry.made.all fun id =>
      entry.phase.left.any fun command => command.closes.map (·.1) = some id) = true) :
    Careful g s (.cancel i) := by
  intro entry call _ hentry hphase id hid
  rw [hentry, Option.all_some, hphase, List.all_eq_true] at h
  obtain ⟨command, hcommand, hcloses⟩ := List.any_eq_true.mp (h id hid.1)
  have hcloses : command.closes.map (·.1) = some id := of_decide_eq_true hcloses
  exact ⟨command, hcommand, hcloses⟩

/-- The request looks for a response, reserves, and is answered by the upstream. -/
def answeredRun : List Action := .submit 0 (sampleClientRequest .openai 10) ::
  .replicate 3 (sampleAnswer 0)

/-- Its client goes away while the usage is recorded. What has been reserved is settled. -/
theorem reservation_settled_sample : ∃ (actions : List Action) (entry : Entry),
    Meets sampleGateway.step (Careful sampleGateway) .initial actions ∧
      Action.cancel 0 ∈ actions ∧
      (runs sampleGateway.step .initial actions).requests 0 = some entry ∧
      entry.made = ["r1"] ∧
      (statusOf (runs sampleGateway.step .initial actions).stores.budgets "r1" = some .settled ∨
        statusOf (runs sampleGateway.step .initial actions).stores.budgets "r1" =
          some .released) := by
  let actions := answeredRun ++ .cancel 0 :: .replicate 3 (sampleAnswer 0)
  have hmeets : Meets sampleGateway.step (Careful sampleGateway) .initial actions := by
    refine (meets_append _).mpr ⟨⟨fun _ hplan => ?_, ?_⟩, careful_cancel (by decide +kernel), ?_⟩
    · cases hplan
      exact ⟨_, _, rfl, rfl⟩
    · iterate 3 refine ⟨careful_sampleAnswer (by decide +kernel), ?_⟩
      trivial
    · iterate 3 refine ⟨careful_sampleAnswer (by decide +kernel), ?_⟩
      trivial
  have hended : ((runs sampleGateway.step .initial actions).requests 0).map
      (fun entry => (entry.made, entry.phase.isEnded)) = some (["r1"], true) := by decide +kernel
  obtain ⟨entry, hentry, hvalues⟩ := Option.map_eq_some_iff.mp hended
  obtain ⟨hmade, hended⟩ := Prod.mk.inj hvalues
  exact ⟨actions, entry, hmeets, by simp [actions], hentry, hmade,
    reservations_closed hmeets hentry hended "r1" (by simp [hmade])⟩

/-- The client goes away while its request waits for the upstream. -/
def cancelledRun : List Action :=
  [.submit 0 (sampleClientRequest .openai 10), sampleAnswer 0, sampleAnswer 0, .cancel 0]

/-- The request cannot be translated for its only provider. -/
def untranslatableRun : List Action :=
  [.submit 0 (sampleClientRequest .anthropic 0), sampleAnswer 0, sampleAnswer 0]

/-- A client that goes away while its request waits for the upstream leaves the reservation open,
and so does a request that cannot be translated for its first provider. -/
theorem reservation_left_open :
    ([cancelledRun, untranslatableRun].map fun actions =>
      (((runs sampleGateway.step .initial actions).requests 0).map
          (fun entry => (entry.phase.isEnded, entry.made)),
        statusOf (runs sampleGateway.step .initial actions).stores.budgets "r1")) =
      List.replicate 2 (some (true, ["r1"]), some .reserved) := by
  decide +kernel

end RouteSmith.Model.JavaGateway
