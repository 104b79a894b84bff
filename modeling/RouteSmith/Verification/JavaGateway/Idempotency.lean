import RouteSmith.Verification.JavaGateway.Reservations

/-! # Requests that carry an idempotency key

Where the requests of a key follow one another, at most one of them settles a reservation and all
that succeed are answered alike. Where they overlap, nothing keeps them apart.
-/

namespace RouteSmith.Model.JavaGateway

open Control Control.Pipeline Store Gateway

/-! ## How far a request has got -/

def Command.isSettle : Command → Bool
  | .settle _ _ => true
  | _ => false

def Command.isSave : Command → Bool
  | .save _ _ _ _ _ => true
  | _ => false

/-- The stages of a request that wants its answer in one piece. -/
inductive Stage where
  | looking
  | rejected
  | replaying (cached : CachedResponse)
  -- nothing has been found
  | working
  -- a reservation has been settled, and the response has not been saved yet
  | settled
  | saved (status : ℕ) (body : JsonNode)

namespace Stage

def Permits (r : ClientRequest) : Stage → Command → Prop
  | looking, .find clientKeyId key _ => clientKeyId = r.clientKeyId ∧ key = r.idempotencyKey
  | replaying _, .record _ => True
  | working, .find _ _ _ => False
  | working, .save _ _ _ _ _ => False
  | working, _ => True
  | settled, .save clientKeyId key _ _ _ => clientKeyId = r.clientKeyId ∧ key = r.idempotencyKey
  | _, _ => False

def note : Stage → (command : Command) → Except Throwable (Answer command) → Stage
  | looking, .find _ _ _, .ok (some cached) => replaying cached
  | looking, .find _ _ _, .ok none => working
  | looking, .find _ _ _, .error _ => rejected
  | working, .settle _ _, .ok _ => settled
  | settled, .save _ _ _ status body, .ok _ => saved status body
  | stage, _, _ => stage

/-- The answers that a request can get to. -/
def Answers : Stage → ProxyResponse → Prop
  | replaying cached, response =>
    response.status = cached.status ∧ response.body = .json cached.body
  | working, response =>
    successful response.status = false ∧ ∀ stream, response.body ≠ .raw stream
  | saved status body, response => response.status = status ∧ response.body = .json body
  | _, _ => False

/-- The stages that a request can fail or be left in. -/
def Parts : Stage → Prop
  | settled => False
  | _ => True

/-- A task can go on from a stage, to where `Q` holds, or `E` where a command of it fails. A save
does not fail. -/
def RunsTo (r : ClientRequest) (Q E : Stage → Prop) : Stage → List Command → Prop
  | stage, [] => Q stage
  | stage, command :: rest => stage.Permits r command ∧
    (command.isSave = false → ∀ error, E (stage.note command (.error error))) ∧
    ∀ answer, RunsTo r Q E (stage.note command (.ok answer)) rest

abbrev Runs (r : ClientRequest) : Stage → List Command → Prop := RunsTo r Parts Parts

end Stage

/-- Watches how far a request gets whose saves do not fail. -/
abbrev stageMonitor (r : ClientRequest) :
    Monitor Call (fun call => Answer call.command) Throwable Stage :=
  ⟨fun stage call => stage.Permits r call.command ∧ stage.Runs r call.left,
    fun _ call result => call.command.isSave = true → ∃ answer, result = .ok answer,
    fun stage call => stage.note call.command⟩

/-- A pipeline that keeps to the stages. -/
abbrev Staged (r : ClientRequest) (flow : Flow ProxyResponse) (stage : Stage) : Prop :=
  Along (stageMonitor r) Stage.Answers (fun stage _ => stage.Parts) flow stage

section Flows

variable {g : Gateway} {r : ClientRequest} {reservation : Reservation} {stage : Stage}

theorem Stage.RunsTo.runs {Q E : Stage → Prop} {task : List Command}
    (h : stage.RunsTo r Q E task) (hQ : ∀ stage, Q stage → stage.Parts)
    (hE : ∀ stage, E stage → stage.Parts) : stage.Runs r task := by
  induction task generalizing stage with
  | nil => exact hQ stage h
  | cons _ _ ih =>
    exact ⟨h.1, fun hsave error => hE _ (h.2.1 hsave error), fun answer => ih (h.2.2 answer)⟩

/-- A task that can go on without its pipeline can be waited for. -/
theorem along_blockingRun {Q E : Stage → Prop} {task : List Command} (timed : Bool)
    (h : stage.RunsTo r Q E task) (hQ : ∀ stage, Q stage → stage.Parts)
    (hE : ∀ stage, E stage → stage.Parts) :
    Along (stageMonitor r) (fun stage _ => Q stage) (fun stage _ => E stage)
      (blockingRun timed task) stage := by
  induction task generalizing stage with
  | nil => exact h
  | cons command rest ih =>
    simp only [blockingRun, along_bind]
    refine along_perform ⟨h.1, h.runs hQ hE⟩ (fun answer _ => ih (h.2.2 answer))
      fun error hexpects => h.2.1 (Bool.eq_false_iff.mpr fun hsave => ?_) error
    obtain ⟨_, hok⟩ := hexpects hsave
    cases hok

theorem Stage.Answers.parts {response : ProxyResponse} (h : stage.Answers response) :
    stage.Parts := by
  cases stage with
  | settled => exact h
  | _ => trivial

theorem parts_working {stage : Stage} (h : stage = .working) : stage.Parts := by
  rw [h]
  trivial

theorem along_completeBufferedAttempt (hstream : r.streamRequested = false) (route : Route)
    (response : UpstreamResponse) (hstage : stage = .working) :
    Along (stageMonitor r) Stage.Answers (fun stage _ => stage = .working)
      (g.completeBufferedAttempt r route reservation response) stage := by
  subst hstage
  simp only [completeBufferedAttempt, along_bind]
  refine along_blockingRun _ ?_ (fun _ => Stage.Answers.parts) fun _ => parts_working
  by_cases hok : successful response.status = true
  · simp only [hok, hstream, if_true]
    exact ⟨trivial, fun _ _ => rfl, fun _ => ⟨trivial, fun _ _ => rfl, fun _ =>
      ⟨⟨rfl, rfl⟩, nofun, fun _ => ⟨rfl, rfl⟩⟩⟩⟩
  · simp only [hok]
    exact ⟨trivial, fun _ _ => rfl, fun _ => ⟨trivial, fun _ _ => rfl, fun _ =>
      ⟨Bool.eq_false_iff.mpr hok, fun _ h => nomatch h⟩⟩⟩

theorem staged_exchange (g : Gateway) (hstream : r.streamRequested = false) :
    Staged r (g.exchange r) .looking := by
  unfold exchange
  split
  · trivial
  simp only [along_bind]
  have hfind : Stage.looking.Runs r [.find r.clientKeyId r.idempotencyKey r.request] := by
    refine ⟨⟨rfl, rfl⟩, fun _ _ => trivial, fun cached => ?_⟩
    cases cached with
    | none | some => trivial
  refine along_perform ⟨⟨rfl, rfl⟩, hfind⟩ (fun cached _ => ?_) fun _ _ => trivial
  cases cached with
  | some =>
    simp only [replay, along_bind]
    exact along_blockingRun _ ⟨trivial, fun _ _ => trivial, fun _ => ⟨rfl, rfl⟩⟩
      (fun _ => Stage.Answers.parts) fun _ => id
  | none =>
    simp only [exchangeUncached, along_bind]
    cases r.plan with
    | error => trivial
    | ok =>
      refine along_perform ⟨trivial, trivial, fun _ _ => trivial, fun _ => trivial⟩
        (fun reservation _ => ?_) fun _ _ => trivial
      split
      · trivial
      next attempts hattempts =>
        rw [along_onErrorResume]
        refine (along_attempt (M := stageMonitor r) (P := (· = .working)) ?_ ?_
          (along_completeBufferedAttempt hstream) hattempts rfl).mono (fun _ _ h => h)
          fun stage _ hstage => ?_
        · rintro _ _ _ rfl
          exact ⟨⟨trivial, trivial⟩, fun _ => rfl⟩
        · exact fun _ hraw => absurd (hraw.symm.trans hstream) (by decide)
        subst hstage
        simp only [along_bind, along_onErrorResume]
        exact along_blockingRun _ ⟨trivial, fun _ _ => trivial, fun _ => trivial⟩ (fun _ => id)
          fun _ => id

/-! ## What a request saves -/

/-- A request saves under its own key, and only an answer in one piece. -/
def Command.SavesAs (r : ClientRequest) : Command → Prop
  | .save clientKeyId key _ _ _ =>
    clientKeyId = r.clientKeyId ∧ key = r.idempotencyKey ∧ r.streamRequested = false
  | _ => True

def SavesAs (r : ClientRequest) (task : List Command) : Prop :=
  ∀ command ∈ task, command.SavesAs r

/-- Watches what a request saves. -/
abbrev saveMonitor (r : ClientRequest) :
    Monitor Call (fun call => Answer call.command) Throwable Unit :=
  ⟨fun _ call => SavesAs r (call.command :: call.left), fun _ _ _ => True, fun _ _ _ => ()⟩

abbrev Saves (r : ClientRequest) (flow : Flow ProxyResponse) : Prop :=
  Along (saveMonitor r) (fun _ _ => True) (fun _ _ => True) flow ()

theorem along_blockingRun_saves {task : List Command} (timed : Bool) (h : SavesAs r task) :
    Along (saveMonitor r) (fun _ _ => True) (fun _ _ => True) (blockingRun timed task) () := by
  induction task with
  | nil => trivial
  | cons command rest ih =>
    simp only [blockingRun, along_bind]
    refine along_perform (fun c hc => ?_)
      (fun _ _ => ih fun c hc => h c (List.mem_cons_of_mem _ hc)) fun _ _ => trivial
    rcases List.mem_cons.mp hc with rfl | hc
    · exact h _ (List.mem_cons_self ..)
    · exact h _ hc

theorem saves_completeBufferedAttempt (route : Route) (response : UpstreamResponse) :
    Saves r (g.completeBufferedAttempt r route reservation response) := by
  simp only [completeBufferedAttempt, along_bind]
  refine (along_blockingRun_saves _ ?_).mono (fun _ _ _ => trivial) fun _ _ _ => trivial
  by_cases hok : successful response.status = true <;>
    by_cases hstream : r.streamRequested = true <;>
    simp [SavesAs, Command.SavesAs, hok]

theorem saves_exchange (g : Gateway) (r : ClientRequest) : Saves r (g.exchange r) := by
  unfold exchange
  split
  · trivial
  simp only [along_bind]
  refine along_perform (by simp [SavesAs, Command.SavesAs]) (fun cached _ => ?_) fun _ _ => trivial
  cases cached with
  | some =>
    simp only [replay, along_bind]
    exact along_blockingRun_saves _ (by simp [SavesAs, Command.SavesAs])
  | none =>
    simp only [exchangeUncached, along_bind]
    cases r.plan with
    | error => trivial
    | ok =>
      refine along_perform (by simp [SavesAs, Command.SavesAs]) (fun reservation _ => ?_)
        fun _ _ => trivial
      split
      · trivial
      next attempts hattempts =>
        rw [along_onErrorResume]
        refine (along_attempt (M := saveMonitor r) (P := fun _ => True) ?_ (fun _ _ _ => trivial)
          (fun route response _ => saves_completeBufferedAttempt route response) hattempts
          trivial).mono (fun _ _ h => h) fun _ _ _ => ?_
        · exact fun _ => ⟨by simp [SavesAs, Command.SavesAs], fun _ => trivial⟩
        simp only [along_bind, along_onErrorResume]
        exact along_blockingRun_saves _ (by simp [SavesAs, Command.SavesAs])

end Flows

/-! ## The requests of a key -/

/-- A request that carries the key and wants its answer in one piece. -/
def ClientRequest.Carries (r : ClientRequest) (key : String × String) : Prop :=
  r.clientKeyId = key.1 ∧ r.idempotencyKey = some key.2 ∧ r.streamRequested = false

instance (r : ClientRequest) (key : String × String) : Decidable (r.Carries key) :=
  inferInstanceAs (Decidable (_ ∧ _ ∧ _))

/-- A response as it is stored for a request with a given hash. -/
structure Stored where
  requestHash : String
  status : ℕ
  body : JsonNode

def Stored.row (mapper : JsonNode.Mapper) (stored : Stored) : IdempotencyRow :=
  ⟨stored.requestHash, stored.status, mapper.write stored.body⟩

def Stored.Matches (stored : Stored) (response : ProxyResponse) : Prop :=
  response.status = stored.status ∧ response.body = .json stored.body

/-- What the stage of a request of the key says of the response stored, and of whether it has
settled anything. -/
def Stage.Fits (key : String) (stored : Option Stored) (settles : Prop) : Stage → Prop
  | looking => ¬settles
  | rejected => ¬settles
  | replaying cached => ¬settles ∧ ∃ hash, stored = some ⟨hash, cached.status, cached.body⟩
  | working => ¬settles ∧ stored = none ∧ validateKey key = .ok ()
  | settled => stored = none ∧ validateKey key = .ok ()
  | saved status body => ∃ hash, stored = some ⟨hash, status, body⟩

/-- A request of the key is where the response stored lets it be. -/
def Phase.Fits (key : String × String) (stored : Option Stored) (r : ClientRequest)
    (settles : Prop) : Phase → Prop
  | .running flow => ∃ stage : Stage, Staged r flow stage ∧ stage.Fits key.2 stored settles
  | .streaming _ => False
  | .closing task outcome =>
    (∃ stage : Stage, stage.Runs r task ∧ stage.Fits key.2 stored settles) ∧
      ∀ response, outcome ≠ .answered response
  | .ended outcome => (settles → stored ≠ none) ∧ ∀ response, outcome = .answered response →
    successful response.status = true → ∃ s, stored = some s ∧ s.Matches response

def Phase.Saves (r : ClientRequest) : Phase → Prop
  | .running flow => JavaGateway.Saves r flow
  | .closing task _ => SavesAs r task
  | _ => True

/-- Nothing is settled or saved. -/
def Quiet (task : List Command) : Prop :=
  ∀ command ∈ task, command.isSettle = false ∧ command.isSave = false

structure Entry.Fits (key : String × String) (stored : Option Stored) (entry : Entry) : Prop where
  saves : entry.phase.Saves entry.request
  tasks : ∀ task ∈ entry.tasks, SavesAs entry.request task
  phase : entry.request.Carries key →
    entry.phase.Fits key stored entry.request (entry.settled ≠ [])
  quiet : entry.request.Carries key → ∀ task ∈ entry.tasks, Quiet task

/-- A response is stored under the key, or none is. -/
abbrev Stores.Holds (stores : Stores) (g : Gateway) (key : String × String)
    (stored : Option Stored) : Prop :=
  stores.responses.lookup key = stored.map (Stored.row g.mapper)

structure Once (g : Gateway) (key : String × String) (stored : Option Stored)
    (s : State) : Prop where
  row_eq : s.stores.Holds g key stored
  fits : ∀ i entry, s.requests i = some entry → entry.Fits key stored
  alone : ∀ i j entry entry', s.requests i = some entry → s.requests j = some entry' →
    entry.request.Carries key → entry'.request.Carries key →
    entry.phase.isEnded = false → entry'.phase.isEnded = false → i = j
  once : ∀ i j entry entry', s.requests i = some entry → s.requests j = some entry' →
    entry.request.Carries key → entry'.request.Carries key →
    entry.settled ≠ [] → entry'.settled ≠ [] → i = j

/-! ## The responses stored -/

/-- What has been written is read as it was. -/
abbrev Gateway.Rereads (g : Gateway) : Prop :=
  ∀ node node', g.mapper.readTree (g.mapper.write node) = some node' → node' = node

section Responses

variable {g : Gateway} {key : String × String} {stores : Stores} {command : Command} {event : Event}

theorem save_other {clientKeyId : String} {sent : Option String} {request : ObjectNode} {status : ℕ}
    {body : JsonNode} {responses responses' : Responses}
    (hother : clientKeyId = key.1 → sent = some key.2 → False)
    (hsave : g.save clientKeyId sent request status body responses = .ok responses') :
    responses'.lookup key = responses.lookup key := by
  cases sent with
  | none => cases hsave; rfl
  | some =>
    simp only [save] at hsave
    split at hsave
    · cases hsave; rfl
    · simp only [bind_eq_ok_iff] at hsave
      obtain ⟨-, -, hsave⟩ := hsave
      split at hsave
      · cases hsave; rfl
      · cases hsave
        refine AList.lookup_insert_ne fun heq => ?_
        exact hother (congrArg Prod.fst heq).symm (congrArg (some ·.2) heq).symm

/-- Only a `save` with the key touches the response stored under it. -/
theorem carryOut_responses (hother : ∀ clientKeyId sent request status body,
      command = .save clientKeyId sent request status body →
        clientKeyId = key.1 → sent = some key.2 → False) :
    (g.carryOut command event stores).stores.responses.lookup key =
      stores.responses.lookup key := by
  have hexecute : ∀ moment response,
      (g.execute moment response stores command).2.responses.lookup key =
        stores.responses.lookup key := by
    intro moment response
    have htransact : ∀ {α} (t : Txn Row Throwable α),
        (stores.transact t).2.responses = stores.responses := by
      intro α t
      simp only [Stores.transact]
      split <;> rfl
    cases command with
    | find | record | upstream => rfl
    | reserve | settle | release => simp only [execute, htransact]
    | save =>
      simp only [execute]
      split
      next responses hsave => exact save_other (hother _ _ _ _ _ rfl) hsave
      · rfl
  cases event with
  | answered moment response => exact hexecute moment response
  | faulted fault moment effect =>
    cases effect with
    | false => rfl
    | true => exact hexecute moment _

theorem execute_save (hblank : isBlank key.2 = false) (hvalid : validateKey key.2 = .ok ())
    (hnone : stores.responses.lookup key = none) (request : ObjectNode) (status : ℕ)
    (body : JsonNode) (moment : Moment) (response : UpstreamResponse) :
    (g.execute moment response stores (.save key.1 (some key.2) request status body)).1 = .ok () ∧
      (g.execute moment response stores
        (.save key.1 (some key.2) request status body)).2.responses.lookup
        key = some (Stored.row g.mapper ⟨g.hash request, status, body⟩) := by
  have hsave : g.save key.1 (some key.2) request status body stores.responses =
      .ok (stores.responses.insert key ⟨g.hash request, status, g.mapper.write body⟩) := by
    simp [save, hblank, hvalid, hnone, bind, Except.bind, pure, Except.pure]
  simp only [execute, hsave]
  exact ⟨trivial, AList.lookup_insert _⟩

theorem find_of_stored (hmapper : g.Rereads) (hblank : isBlank key.2 = false)
    {stored : Option Stored} (hrow : stores.Holds g key stored) {request : ObjectNode}
    {found : Option CachedResponse}
    (hfind : g.find key.1 (some key.2) request stores.responses = .ok found) :
    validateKey key.2 = .ok () ∧ found = stored.map fun s => ⟨s.status, s.body⟩ := by
  simp only [find, hblank, Bool.false_eq_true, if_false, bind_eq_ok_iff] at hfind
  obtain ⟨⟨⟩, hvalid, hfind⟩ := hfind
  refine ⟨hvalid, ?_⟩
  rw [hrow] at hfind
  cases stored with
  | none =>
    cases hfind
    rfl
  | some =>
    simp only [Option.map_some] at hfind
    split at hfind
    · cases hfind
    next body hbody =>
      split at hfind
      · cases hfind
      · cases hfind
        rw [hmapper _ _ hbody]
        rfl

/-! ## One command of a request -/

/-- Of a command that settles or saves, a request gets to see what becomes of it. -/
def Event.Seen (event : Event) : Command → Prop
  | .settle _ _ => ∀ fault moment, event ≠ .faulted fault moment true
  | .save _ _ _ _ _ => ∃ moment response, event = .answered moment response
  | _ => True

theorem carryOut_settled_eq_none (h : command.isSettle = false) :
    (g.carryOut command event stores).settled = none := by
  have hnone : ∀ result, settledOf command result = none := by
    cases command with
    | settle => cases h
    | _ => exact fun _ => rfl
  cases event with
  | answered => exact hnone _
  | faulted _ _ effect =>
    cases effect with
    | true => exact hnone _
    | false => rfl

theorem carryOut_settle_error {reservationId : String} {tokens : ℤ} {error : Throwable}
    (hseen : event.Seen (.settle reservationId tokens))
    (herror : (g.carryOut (.settle reservationId tokens) event stores).result = .error error) :
    (g.carryOut (.settle reservationId tokens) event stores).settled = none := by
  cases event with
  | answered moment response =>
    have hsettled := congrArg (settledOf (.settle reservationId tokens)) herror
    exact hsettled
  | faulted fault moment effect =>
    cases effect with
    | false => rfl
    | true => exact absurd rfl (hseen fault moment)

/-- What a command leads to for a request of the key: the response stored afterwards, and what is
settled by then. -/
structure Led (g : Gateway) (key : String × String) (stored stored' : Option Stored)
    (command : Command) (out : CarriedOut command) : Prop where
  row_eq : out.stores.Holds g key stored'
  stored_eq : stored' = stored ∨ stored = none
  settled : stored ≠ none → out.settled = none
  saved : command.isSave = true → ∃ answer, out.result = .ok answer

section Commands

variable {r : ClientRequest} {stage : Stage} {stored : Option Stored} {settles : Prop}

theorem led_of_quiet (hrow : stores.Holds g key stored) (hsave : command.isSave = false)
    (hsettle : command.isSettle = false) :
    Led g key stored stored command (g.carryOut command event stores) where
  row_eq := (carryOut_responses fun _ _ _ _ _ heq _ _ => by subst heq; cases hsave).trans hrow
  stored_eq := .inl rfl
  settled _ := carryOut_settled_eq_none hsettle
  saved h := absurd (h.symm.trans hsave) nofun

theorem Stage.Fits.step (hmapper : g.Rereads) (hblank : isBlank key.2 = false)
    (hcarries : r.Carries key) (hrow : stores.Holds g key stored)
    (hfits : stage.Fits key.2 stored settles) (hpermits : stage.Permits r command)
    (hseen : event.Seen command) :
    ∃ stored', Led g key stored stored' command (g.carryOut command event stores) ∧
      (stage.note command (g.carryOut command event stores).result).Fits key.2 stored'
        ((g.carryOut command event stores).settled ≠ none ∨ settles) := by
  have hstill : command.isSettle = false → ¬settles →
      ¬((g.carryOut command event stores).settled ≠ none ∨ settles) := by
    rintro hsettle hnot (hsettled | hsettles)
    · exact hsettled (carryOut_settled_eq_none hsettle)
    · exact hnot hsettles
  cases stage with
  | looking =>
    cases command with
    | find clientKeyId sent request =>
      refine ⟨stored, led_of_quiet hrow rfl rfl, ?_⟩
      cases hresult : (g.carryOut (.find clientKeyId sent request) event stores).result with
      | error => exact hstill rfl hfits
      | ok found =>
        obtain ⟨rfl, rfl⟩ := hpermits
        have hfind : g.find key.1 (some key.2) request stores.responses = .ok found := by
          rw [← hcarries.1, ← hcarries.2.1]
          cases event with
          | answered => exact hresult
          | faulted _ _ effect => cases effect <;> cases hresult
        obtain ⟨hvalid, rfl⟩ := find_of_stored hmapper hblank hrow hfind
        cases stored with
        | none => exact ⟨hstill rfl hfits, rfl, hvalid⟩
        | some st => exact ⟨hstill rfl hfits, st.requestHash, rfl⟩
    | _ => cases hpermits
  | replaying =>
    cases command with
    | record => exact ⟨stored, led_of_quiet hrow rfl rfl, hstill rfl hfits.1, hfits.2⟩
    | _ => cases hpermits
  | working =>
    obtain ⟨hunsettled, rfl, hvalid⟩ := hfits
    cases command with
    | find | save => cases hpermits
    | settle reservationId tokens =>
      refine ⟨none, ⟨?_, .inl rfl, absurd rfl, nofun⟩, ?_⟩
      · exact (carryOut_responses fun _ _ _ _ _ heq _ _ => by cases heq).trans hrow
      cases hresult : (g.carryOut (.settle reservationId tokens) event stores).result with
      | error =>
        refine ⟨?_, rfl, hvalid⟩
        rintro (hsettled | hsettles)
        · exact hsettled (carryOut_settle_error hseen hresult)
        · exact hunsettled hsettles
      | ok => exact ⟨rfl, hvalid⟩
    | record | reserve | upstream | release =>
      exact ⟨none, led_of_quiet hrow rfl rfl, hstill rfl hunsettled, rfl, hvalid⟩
  | settled =>
    obtain ⟨rfl, hvalid⟩ := hfits
    cases command with
    | save _ _ request status body =>
      obtain ⟨hclient, hsent⟩ := hpermits
      obtain ⟨moment, response, rfl⟩ := hseen
      rw [hclient, hcarries.1, hsent, hcarries.2.1]
      obtain ⟨hok, hlookup⟩ := execute_save hblank hvalid hrow _ _ body moment response
      have hresult : (g.carryOut (.save key.1 (some key.2) request status body)
        (.answered moment response) stores).result = .ok () := hok
      refine ⟨some _, ⟨hlookup, .inr rfl, absurd rfl, fun _ => ⟨(), hresult⟩⟩, ?_⟩
      rw [hresult]
      exact ⟨_, rfl⟩
    | _ => cases hpermits
  | rejected | saved => cases hpermits

theorem Stage.Fits.note_error (hfits : stage.Fits key.2 stored settles)
    (hsave : command.isSave = false) (error : Throwable) :
    (stage.note command (.error error)).Fits key.2 stored settles := by
  cases stage with
  | looking | working => cases command <;> exact hfits
  | settled =>
    cases command with
    | save => cases hsave
    | _ => exact hfits
  | _ => exact hfits

theorem Stage.Fits.mono {settles' : Prop} (hfits : stage.Fits key.2 stored settles)
    (h : settles' → settles) : stage.Fits key.2 stored settles' := by
  cases stage with
  | looking | rejected => exact fun hsettles => hfits (h hsettles)
  | replaying | working => exact ⟨fun hsettles => hfits.1 (h hsettles), hfits.2⟩
  | settled | saved => exact hfits

/-- A request of the key that has settled a reservation can be left only with a response stored. -/
theorem Stage.Fits.stored_of_settles (hfits : stage.Fits key.2 stored settles)
    (hparts : stage.Parts) (hsettles : settles) : stored ≠ none := by
  cases stage with
  | looking | rejected => exact absurd hsettles hfits
  | replaying | working => exact absurd hsettles hfits.1
  | settled => cases hparts
  | saved =>
    obtain ⟨-, rfl⟩ := hfits
    nofun

theorem Stage.Answers.matches_stored {response : ProxyResponse} (h : stage.Answers response)
    (hfits : stage.Fits key.2 stored settles) (hsuccessful : successful response.status = true) :
    ∃ s, stored = some s ∧ s.Matches response := by
  cases stage with
  | looking | rejected | settled => cases h
  | replaying =>
    obtain ⟨-, hash, hstored⟩ := hfits
    exact ⟨_, hstored, h⟩
  | working => exact absurd (hsuccessful.symm.trans h.1) nofun
  | saved =>
    obtain ⟨hash, hstored⟩ := hfits
    exact ⟨_, hstored, h⟩

theorem Stage.Answers.not_raw {response : ProxyResponse} (h : stage.Answers response)
    (stream : RawStream) : response.body ≠ .raw stream := by
  intro hraw
  cases stage with
  | looking | rejected | settled => cases h
  | replaying | saved => cases h.2.symm.trans hraw
  | working => exact h.2 stream hraw

/-! ## Phases -/

theorem fits_of {flow : Flow ProxyResponse} (hstaged : Staged r flow stage)
    (hfits : stage.Fits key.2 stored settles) :
    (Phase.of flow).Fits key stored r settles := by
  cases flow with
  | done response =>
    have hanswers : stage.Answers response := hstaged
    have hended : (Phase.ended (.answered response)).Fits key stored r settles := by
      refine ⟨hfits.stored_of_settles hanswers.parts, fun _ hresponse hsuccessful => ?_⟩
      cases hresponse
      exact hanswers.matches_stored hfits hsuccessful
    cases hbody : response.body with
    | raw stream => exact absurd hbody (hanswers.not_raw stream)
    | json | synthetic =>
      simp only [Phase.of, hbody]
      exact hended
  | fail => exact ⟨hfits.stored_of_settles hstaged, fun _ h => nomatch h⟩
  | call => exact ⟨stage, hstaged, hfits⟩

/-- A request whose client has gone is where the task that goes on lets it be. -/
theorem fits_ofTask {task : List Command} {outcome : Outcome} (hruns : stage.Runs r task)
    (houtcome : ∀ response, outcome ≠ .answered response)
    (hfits : stage.Fits key.2 stored settles) :
    (Phase.ofTask task outcome).Fits key stored r settles := by
  cases task with
  | nil => exact ⟨hfits.stored_of_settles hruns, fun response h => absurd h (houtcome response)⟩
  | cons => exact ⟨⟨stage, hruns, hfits⟩, houtcome⟩

theorem Phase.Fits.mono {phase : Phase} {settles' : Prop} (h : phase.Fits key stored r settles)
    (hsettles : settles' → settles) : phase.Fits key stored r settles' := by
  cases phase with
  | running =>
    obtain ⟨stage, hstaged, hfits⟩ := h
    exact ⟨stage, hstaged, hfits.mono hsettles⟩
  | streaming => exact h
  | closing =>
    obtain ⟨⟨stage, hruns, hfits⟩, houtcome⟩ := h
    exact ⟨⟨stage, hruns, hfits.mono hsettles⟩, houtcome⟩
  | ended => exact ⟨fun h' => h.1 (hsettles h'), h.2⟩

theorem Phase.saves_of {flow : Flow ProxyResponse} (h : JavaGateway.Saves r flow) :
    (Phase.of flow).Saves r := by
  cases flow with
  | done response =>
    cases hbody : response.body <;> simp only [Phase.of, hbody] <;> trivial
  | fail => trivial
  | call => exact h

theorem Phase.saves_ofTask {task : List Command} (h : SavesAs r task) (outcome : Outcome) :
    (Phase.ofTask task outcome).Saves r := by
  cases task with
  | nil => trivial
  | cons => exact h

end Commands

end Responses

section Once

variable {g : Gateway} {key : String × String} {stored stored' : Option Stored} {s : State}

variable {command : Command} {event : Event} {i : ℕ} {entry : Entry}

/-- When the first response is stored for the key, its requests that have ended have settled
nothing. -/
theorem Entry.Fits.of_stored (h : entry.Fits key stored) (hstored : stored' = stored ∨
      stored = none ∧ (entry.request.Carries key → entry.phase.isEnded = true)) :
    entry.Fits key stored' := by
  rcases hstored with rfl | ⟨rfl, hended⟩
  · exact h
  refine ⟨h.saves, h.tasks, fun hcarries => ?_, h.quiet⟩
  have hphase := h.phase hcarries
  cases hentry : entry.phase with
  | ended =>
    rw [hentry] at hphase
    refine ⟨fun hsettles => absurd rfl (hphase.1 hsettles), fun response hanswered hok => ?_⟩
    obtain ⟨_, hnone, -⟩ := hphase.2 response hanswered hok
    cases hnone
  | running | streaming | closing =>
    rw [hentry] at hended
    cases hended hcarries

theorem Once.put (h : Once g key stored s) {stores : Stores} (hrow : stores.Holds g key stored')
    (hstored : stored' = stored ∨ entry.request.Carries key ∧ stored = none)
    (hfits : entry.Fits key stored')
    (halone : entry.request.Carries key → stored' ≠ stored ∨ entry.phase.isEnded = false →
      ∀ j ≠ i, ∀ old, s.requests j = some old → old.request.Carries key → old.phase.isEnded = true)
    (honce : entry.request.Carries key → entry.settled ≠ [] →
      ∀ j ≠ i, ∀ old, s.requests j = some old → old.request.Carries key → old.settled = []) :
    Once g key stored' (s.put i stores entry) := by
  refine ⟨hrow, fun j new hj => ?_,
    fun j k new new' hj hk hcarries hcarries' hactive hactive' => ?_,
    fun j k new new' hj hk hcarries hcarries' hsettled hsettled' => ?_⟩
  · rcases requests_put hj with ⟨rfl, rfl⟩ | ⟨hji, hj⟩
    · exact hfits
    · refine (h.fits j new hj).of_stored ?_
      by_cases hsame : stored' = stored
      · exact .inl hsame
      · obtain ⟨hcarries, hnone⟩ := hstored.resolve_left hsame
        exact .inr ⟨hnone, halone hcarries (.inl hsame) j hji new hj⟩
  · rcases requests_put hj with ⟨rfl, rfl⟩ | ⟨hji, hj'⟩ <;>
      rcases requests_put hk with ⟨rfl, rfl⟩ | ⟨hki, hk'⟩
    · rfl
    · rw [halone hcarries (.inr hactive) k hki new' hk' hcarries'] at hactive'
      cases hactive'
    · rw [halone hcarries' (.inr hactive') j hji new hj' hcarries] at hactive
      cases hactive
    · exact h.alone j k new new' hj' hk' hcarries hcarries' hactive hactive'
  · rcases requests_put hj with ⟨rfl, rfl⟩ | ⟨hji, hj'⟩ <;>
      rcases requests_put hk with ⟨rfl, rfl⟩ | ⟨hki, hk'⟩
    · rfl
    · exact absurd (honce hcarries hsettled k hki new' hk' hcarries') hsettled'
    · exact absurd (honce hcarries' hsettled' j hji new hj' hcarries) hsettled
    · exact h.once j k new new' hj' hk' hcarries hcarries' hsettled hsettled'

theorem Once.others_ended (h : Once g key stored s) (hentry : s.requests i = some entry)
    (hcarries : entry.request.Carries key) (hactive : entry.phase.isEnded = false) {j : ℕ}
    (hji : j ≠ i) {old : Entry} (hj : s.requests j = some old)
    (hcarries' : old.request.Carries key) : old.phase.isEnded = true := by
  by_contra hne
  exact hji (h.alone j i old _ hj hentry hcarries' hcarries (Bool.eq_false_iff.mpr hne) hactive)

theorem Once.others_unsettled (h : Once g key stored s) (hentry : s.requests i = some entry)
    (hcarries : entry.request.Carries key) (hsettled : entry.settled ≠ []) {j : ℕ} (hji : j ≠ i)
    {old : Entry} (hj : s.requests j = some old) (hcarries' : old.request.Carries key) :
    old.settled = [] := by
  by_contra hsettled'
  exact hji (h.once j i old _ hj hentry hcarries' hcarries hsettled' hsettled)

theorem Once.turn (h : Once g key stored s) {old phase : Phase} {tasks : List (List Command)}
    (hentry : s.requests i = some entry) (hphase : entry.phase = old)
    (hactive : old.isEnded = false) (hfits : Entry.Fits key stored { entry with phase, tasks }) :
    Once g key stored (s.put i s.stores { entry with phase, tasks }) :=
  h.put h.row_eq (.inl rfl) hfits
    (fun hcarries _ _ hji _ => h.others_ended hentry hcarries (hphase ▸ hactive) hji)
    fun hcarries hsettled _ hji _ => h.others_unsettled hentry hcarries hsettled hji

theorem holds_of_not_carries {r : ClientRequest} {stores : Stores} (hcommand : command.SavesAs r)
    (hcarries : ¬r.Carries key) (hrow : stores.Holds g key stored) :
    (g.carryOut command event stores).stores.Holds g key stored := by
  refine (carryOut_responses fun _ _ _ _ _ hsave hclient hsent => hcarries ?_).trans hrow
  subst hsave
  obtain ⟨hclient', hsent', hstream⟩ := hcommand
  exact ⟨hclient'.symm.trans hclient, hsent'.symm.trans hsent, hstream⟩

/-- One command of a request that goes on, whether it is waited for or not. -/
theorem Once.performed (h : Once g key stored s) (hmapper : g.Rereads)
    (hblank : isBlank key.2 = false) {old : Phase} (hentry : s.requests i = some entry)
    (hphase : entry.phase = old) (hactive : old.isEnded = false)
    (hcommand : command.SavesAs entry.request) {phase : Except Throwable (Answer command) → Phase}
    (hsaves : ∀ result, (phase result).Saves entry.request)
    (hstage : entry.request.Carries key → ∃ stage : Stage, stage.Permits entry.request command ∧
      stage.Fits key.2 stored (entry.settled ≠ []) ∧ event.Seen command ∧
      ∀ result, (command.isSave = true → ∃ answer, result = .ok answer) → ∀ stored' settles,
        (stage.note command result).Fits key.2 stored' settles →
          (phase result).Fits key stored' entry.request settles) :
    ∃ stored', Once g key stored' (g.advance s i command event fun result =>
      { entry with phase := phase result }) := by
  have hfits := h.fits i entry hentry
  rw [← hphase] at hactive
  by_cases hcarries : entry.request.Carries key
  · obtain ⟨stage, hpermits, hstageFits, hseen, hnext⟩ := hstage hcarries
    obtain ⟨stored', hled, hfits'⟩ :=
      hstageFits.step hmapper hblank hcarries h.row_eq hpermits hseen
    refine ⟨stored', h.put hled.row_eq (hled.stored_eq.imp_right (⟨hcarries, ·⟩))
      ⟨hsaves _, hfits.tasks, fun _ => ?_, hfits.quiet⟩
      (fun _ _ _ hji _ => h.others_ended hentry hcarries hactive hji)
      fun _ hsettled _ hji old hj hcarries' => ?_⟩
    · refine (hnext _ hled.saved _ _ hfits').mono fun hsettled => ?_
      by_contra hnone
      rw [not_or, not_not, not_not] at hnone
      exact hsettled (by rw [hnone.1, hnone.2]; rfl)
    · by_cases hnone : stored = none
      · -- the others have ended without a response stored
        by_contra hsettled'
        have hended := h.others_ended hentry hcarries hactive hji hj hcarries'
        have hphase := (h.fits _ _ hj).phase hcarries'
        cases hold : old.phase with
        | ended =>
          rw [hold] at hphase
          exact hphase.1 hsettled' hnone
        | _ => simp [hold, Phase.isEnded] at hended
      · rw [hled.settled hnone] at hsettled
        exact h.others_unsettled hentry hcarries hsettled hji hj hcarries'
  · exact ⟨stored, h.put (holds_of_not_carries hcommand hcarries h.row_eq) (.inl rfl)
      ⟨hsaves _, hfits.tasks, (absurd · hcarries), hfits.quiet⟩ (absurd · hcarries)
      (absurd · hcarries)⟩

theorem Once.goOn (h : Once g key stored s) {task : ℕ} {rest : List Command}
    (hentry : s.requests i = some entry)
    (htask : entry.tasks[task]? = some (command :: rest)) :
    Once g key stored (g.advance s i command event fun result =>
      { entry with tasks := entry.tasks.set task (goesOn rest result) }) := by
  have hfits := h.fits i entry hentry
  have hmem := List.mem_of_getElem? htask
  have hsubset : ∀ left ∈ entry.tasks.set task
      (goesOn rest (g.carryOut command event s.stores).result),
      left ∈ entry.tasks ∨ ∀ command ∈ left, command ∈ rest := by
    intro left hleft
    refine (List.mem_or_eq_of_mem_set hleft).imp_right fun heq => ?_
    subst heq
    cases (g.carryOut command event s.stores).result with
    | error => exact fun _ hnone => (nomatch hnone)
    | ok => exact fun _ => id
  have hquiet : entry.request.Carries key → command.isSettle = false ∧ command.isSave = false :=
    fun hcarries => hfits.quiet hcarries _ hmem _ (List.mem_cons_self ..)
  have hsettled : entry.request.Carries key →
      (g.carryOut command event s.stores).settled.toList ++ entry.settled = entry.settled := by
    intro hcarries
    rw [carryOut_settled_eq_none (hquiet hcarries).1]
    rfl
  refine h.put ?_ (.inl rfl) ⟨hfits.saves, fun left hleft => ?_, fun hcarries => ?_,
    fun hcarries left hleft => ?_⟩ (fun hcarries hactive _ hji _ => ?_)
    fun hcarries hnew _ hji _ => ?_
  · by_cases hcarries : entry.request.Carries key
    · exact (led_of_quiet h.row_eq (hquiet hcarries).2 (hquiet hcarries).1).row_eq
    · exact holds_of_not_carries (hfits.tasks _ hmem _ (List.mem_cons_self ..)) hcarries h.row_eq
  · rcases hsubset left hleft with hleft | hrest
    · exact hfits.tasks left hleft
    · exact fun c hc => hfits.tasks _ hmem c (List.mem_cons_of_mem _ (hrest c hc))
  · refine (hfits.phase hcarries).mono fun hnew => ?_
    rwa [← hsettled hcarries]
  · rcases hsubset left hleft with hleft | hrest
    · exact hfits.quiet hcarries left hleft
    · exact fun c hc => hfits.quiet hcarries _ hmem c (List.mem_cons_of_mem _ (hrest c hc))
  · exact h.others_ended hentry hcarries (hactive.resolve_left fun hne => hne rfl) hji
  · exact h.others_unsettled hentry hcarries (hsettled hcarries ▸ hnew) hji

theorem Once.timeOut (h : Once g key stored s) {call : Call}
    {next : Except Throwable (Answer call.command) → Flow ProxyResponse}
    (hentry : s.requests i = some entry) (hphase : entry.phase = .running (.call call next))
    (hcall : entry.request.Carries key → Quiet (call.command :: call.left)) :
    Once g key stored (s.put i s.stores { entry with
      phase := .of (next (.error .timeout))
      tasks := call.left :: entry.tasks }) := by
  obtain ⟨hsaves, htasks, hstage, hquiet⟩ := h.fits i entry hentry
  rw [hphase] at hsaves hstage
  refine h.turn hentry hphase rfl ⟨Phase.saves_of (hsaves.2 _ trivial), fun task htask => ?_,
    fun hcarries => ?_, fun hcarries task htask => ?_⟩
  · rcases List.mem_cons.mp htask with rfl | htask
    · exact fun c hc => hsaves.1 c (List.mem_cons_of_mem _ hc)
    · exact htasks task htask
  · obtain ⟨stage, hstaged, hstageFits⟩ := hstage hcarries
    have hsave := (hcall hcarries _ (List.mem_cons_self ..)).2
    exact fits_of (hstaged.2 _ fun hsave' => absurd (hsave'.symm.trans hsave) (by decide))
      (hstageFits.note_error hsave _)
  · rcases List.mem_cons.mp htask with rfl | htask
    · exact fun c hc => hcall hcarries c (List.mem_cons_of_mem _ hc)
    · exact hquiet hcarries task htask

end Once

/-! ## Runs -/

/-- The requests of a key follow one another, and none of them is left between a settled reservation
and a stored response. -/
def Orderly (key : String × String) (s : State) : Action → Prop
  | .submit _ request => request.Carries key → ∀ j entry, s.requests j = some entry →
    entry.request.Carries key → entry.phase.isEnded = true
  | .perform i event => ∀ entry, s.requests i = some entry → entry.request.Carries key →
    (∀ call next, entry.phase = .running (.call call next) → event.Seen call.command) ∧
    (∀ command rest outcome, entry.phase = .closing (command :: rest) outcome →
      event.Seen command)
  | .timeOut i => ∀ entry call next, s.requests i = some entry → entry.request.Carries key →
    entry.phase = .running (.call call next) → Quiet (call.command :: call.left)
  | _ => True

section Runs

variable {g : Gateway} {key : String × String} {stored : Option Stored} {s : State}

theorem Stage.Runs.goesOn {stage : Stage} {r : ClientRequest} {command : Command}
    {rest : List Command} (h : stage.Runs r (command :: rest))
    {result : Except Throwable (Answer command)}
    (hsave : command.isSave = true → ∃ answer, result = .ok answer) :
    (stage.note command result).Runs r (goesOn rest result) := by
  cases result with
  | ok answer => exact h.2.2 answer
  | error error =>
    refine h.2.1 (Bool.eq_false_iff.mpr fun hcommand => ?_) error
    obtain ⟨_, hok⟩ := hsave hcommand
    cases hok

theorem Once.step (h : Once g key stored s) (hmapper : g.Rereads)
    (hblank : isBlank key.2 = false) {action : Action} (horderly : Orderly key s action) :
    ∃ stored', Once g key stored' (g.step s action) := by
  have hcases := stepCases g s action
  generalize g.step s action = s' at hcases
  cases hcases with
  | same => exact ⟨stored, h⟩
  | submit request =>
    refine ⟨stored, h.put h.row_eq (.inl rfl) ⟨Phase.saves_of (saves_exchange g _), nofun,
      fun hcarries => fits_of (staged_exchange g hcarries.2.2) ?_, fun _ => nofun⟩
      (fun hcarries _ j _ => horderly hcarries j) fun _ hsettled => absurd rfl hsettled⟩
    exact fun hsettled => hsettled rfl
  | @perform i entry call next event hentry hphase =>
    obtain ⟨hsaves, -, hstage, -⟩ := h.fits i entry hentry
    rw [hphase] at hsaves hstage
    refine h.performed hmapper hblank hentry hphase rfl (hsaves.1 _ (List.mem_cons_self ..))
      (fun result => Phase.saves_of (hsaves.2 result trivial)) fun hcarries => ?_
    obtain ⟨stage, hstaged, hstageFits⟩ := hstage hcarries
    exact ⟨stage, hstaged.1.1, hstageFits, (horderly _ hentry hcarries).1 _ _ hphase,
      fun result hsave _ _ => fits_of (hstaged.2 result hsave)⟩
  | @close i entry command rest outcome event hentry hphase =>
    obtain ⟨hsaves, -, hstage, -⟩ := h.fits i entry hentry
    rw [hphase] at hsaves hstage
    refine h.performed hmapper hblank hentry hphase rfl (hsaves _ (List.mem_cons_self ..))
      (fun result => Phase.saves_ofTask ?_ _) fun hcarries => ?_
    · cases result with
      | ok => exact fun c hc => hsaves c (List.mem_cons_of_mem _ hc)
      | error => exact fun _ hnone => (nomatch hnone)
    · obtain ⟨⟨stage, hruns, hstageFits⟩, houtcome⟩ := hstage hcarries
      exact ⟨stage, hruns.1, hstageFits, (horderly _ hentry hcarries).2 _ _ _ hphase,
        fun result hsave _ _ => fits_ofTask (hruns.goesOn hsave) houtcome⟩
  | goOn event hentry htask => exact ⟨stored, h.goOn hentry htask⟩
  | timeOut hentry hphase =>
    exact ⟨stored, h.timeOut hentry hphase fun hcarries => horderly _ _ _ hentry hcarries hphase⟩
  | @cancel i entry call next hentry hphase =>
    obtain ⟨hsaves, htasks, hstage, hquiet⟩ := h.fits i entry hentry
    rw [hphase] at hsaves hstage
    refine ⟨stored, h.turn hentry hphase rfl ⟨Phase.saves_ofTask
      (fun c hc => hsaves.1 c (List.mem_cons_of_mem _ hc)) _, htasks, fun hcarries => ?_, hquiet⟩⟩
    obtain ⟨stage, hstaged, hstageFits⟩ := hstage hcarries
    exact fits_ofTask hstaged.1.2 (fun _ hanswered => by cases hanswered) hstageFits
  | @endStream i entry stream ending hentry hphase =>
    obtain ⟨-, htasks, hstage, hquiet⟩ := h.fits i entry hentry
    rw [hphase] at hstage
    refine ⟨stored, h.turn hentry hphase rfl ⟨Phase.saves_ofTask ?_ _, htasks,
      fun hcarries => (hstage hcarries).elim, hquiet⟩⟩
    cases ending <;> simp [SavesAs, Command.SavesAs, RawStream.onEnd]

theorem once_initial (g : Gateway) (key : String × String) : Once g key none .initial where
  row_eq := rfl
  fits _ _ h := nomatch h
  alone _ _ _ _ h := nomatch h
  once _ _ _ _ h := nomatch h

/-- In every run in which the requests of a key follow one another, and none of them is lost between
a settled reservation and a stored response: at most one of them has settled a reservation, every
one that succeeds is answered with the response stored, and all of these answers are equal. -/
theorem answered_once_of_orderly {actions : List Action}
    (hmapper : ∀ node node', g.mapper.readTree (g.mapper.write node) = some node' → node' = node)
    (hblank : isBlank key.2 = false) (hmeets : Meets g.step (Orderly key) .initial actions) :
    let s := runs g.step .initial actions
    (∀ i j entry entry', s.requests i = some entry → s.requests j = some entry' →
      entry.request.Carries key → entry'.request.Carries key →
      entry.settled ≠ [] → entry'.settled ≠ [] → i = j) ∧
    (∀ i entry response, s.requests i = some entry → entry.request.Carries key →
      entry.phase = .ended (.answered response) → successful response.status = true →
      ∃ hash node, response.body = .json node ∧
        s.stores.responses.lookup key = some ⟨hash, response.status, g.mapper.write node⟩) ∧
    (∀ i j entry entry' response response', s.requests i = some entry → s.requests j = some entry' →
      entry.request.Carries key → entry'.request.Carries key →
      entry.phase = .ended (.answered response) → entry'.phase = .ended (.answered response') →
      successful response.status = true → successful response'.status = true →
      response.status = response'.status ∧ response.body = response'.body) := by
  intro s
  obtain ⟨stored, h⟩ := runs_invariant_of_meets (I := fun s => ∃ stored, Once g key stored s)
      (fun _ _ horderly h => h.choose_spec.step hmapper hblank horderly) hmeets
      ⟨none, once_initial g key⟩
  have hanswered : ∀ i entry response, s.requests i = some entry → entry.request.Carries key →
      entry.phase = .ended (.answered response) → successful response.status = true →
      ∃ st, stored = some st ∧ st.Matches response := by
    intro i entry response hentry hcarries hphase hsuccessful
    have hfits := (h.fits i _ hentry).phase hcarries
    rw [hphase] at hfits
    exact hfits.2 response rfl hsuccessful
  refine ⟨h.once, fun i entry response hentry hcarries hphase hsuccessful => ?_,
    fun i j _ _ _ _ hi hj hcarries hcarries' hphase hphase' hok hok' => ?_⟩
  · obtain ⟨st, rfl, hmatches⟩ := hanswered i _ _ hentry hcarries hphase hsuccessful
    refine ⟨st.requestHash, st.body, hmatches.2, h.row_eq.trans ?_⟩
    rw [hmatches.1]
    rfl
  · obtain ⟨_, hst, hmatches⟩ := hanswered i _ _ hi hcarries hphase hok
    obtain ⟨_, hst', hmatches'⟩ := hanswered j _ _ hj hcarries' hphase' hok'
    cases hst.symm.trans hst'
    exact ⟨hmatches.1.trans hmatches'.1.symm, hmatches.2.trans hmatches'.2.symm⟩

end Runs

/-! ## Two requests -/

/-- A request with the idempotency key `k`. -/
def sampleKeyedRequest : ClientRequest :=
  { sampleClientRequest .openai 10 with idempotencyKey := some "k" }

/-- The next command of a request is carried out; its reservation and the body of its upstream's
response are given. -/
def answerWith (i : ℕ) (id body : String) : Action :=
  .perform i (.answered ⟨"2026-01", 1, id⟩ ⟨200, body, "", 0⟩)

/-- The text that the upstream's body was if it was no JSON. -/
def rawText (node : JsonNode) : Option String :=
  match node.path "raw" with
  | .text text => some text
  | _ => none

def Phase.rawAnswer : Phase → Option (ℕ × Option String)
  | .ended (.answered ⟨status, .json node, _, _⟩) => some (status, rawText node)
  | _ => none

/-- What is seen of a request in the end: whether it is one of the key's, what it has settled, and
its answer. -/
def Entry.seen (entry : Entry) : Bool × List String × Option (ℕ × Option String) :=
  (entry.request.Carries ("key_1", "k"), entry.settled, entry.phase.rawAnswer)

theorem exists_answered {s : State} {i : ℕ} (settled : List String) (text : Option String)
    (h : (s.requests i).map Entry.seen = some (true, settled, some (200, text))) :
    ∃ entry response node, s.requests i = some entry ∧ entry.request.Carries ("key_1", "k") ∧
      entry.settled = settled ∧ entry.phase = .ended (.answered response) ∧
      response.status = 200 ∧ response.body = .json node ∧ rawText node = text := by
  obtain ⟨entry, hentry, hseen⟩ := Option.map_eq_some_iff.mp h
  obtain ⟨hcarries, hvalues⟩ := Prod.mk.inj hseen
  obtain ⟨hsettled, hanswer⟩ := Prod.mk.inj hvalues
  unfold Phase.rawAnswer at hanswer
  split at hanswer
  next node _ _ hphase =>
    obtain ⟨hstatus, htext⟩ := Prod.mk.inj (Option.some.inj hanswer)
    exact ⟨entry, _, node, hentry, of_decide_eq_true hcarries, hsettled, hphase,
      hstatus, rfl, htext⟩
  · cases hanswer

/-- Both requests look before either has saved a response. -/
def overlappingRun : List Action :=
  [.submit 0 sampleKeyedRequest, .submit 1 sampleKeyedRequest] ++
    ([answerWith 0 "" "", answerWith 1 "" ""] ++ List.replicate 5 (answerWith 0 "r1" "a") ++
      List.replicate 5 (answerWith 1 "r2" "b"))

/-- Two requests with one key and one body that overlap are both answered by the upstream, with
different bodies, and both settle. -/
theorem answered_twice : ∃ entry entry' response response',
    (runs sampleGateway.step .initial overlappingRun).requests 0 = some entry ∧
    (runs sampleGateway.step .initial overlappingRun).requests 1 = some entry' ∧
    entry.request.Carries ("key_1", "k") ∧ entry'.request.Carries ("key_1", "k") ∧
    entry.settled = ["r1"] ∧ entry'.settled = ["r2"] ∧
    statusOf (runs sampleGateway.step .initial overlappingRun).stores.budgets "r1" = some .settled ∧
    statusOf (runs sampleGateway.step .initial overlappingRun).stores.budgets "r2" = some .settled ∧
    entry.phase = .ended (.answered response) ∧ entry'.phase = .ended (.answered response') ∧
    response.status = 200 ∧ response'.status = 200 ∧ response.body ≠ response'.body := by
  obtain ⟨entry, response, _, hentry, hcarries, hsettled, hphase, hstatus, hbody, htext⟩ :=
    @exists_answered (runs sampleGateway.step .initial overlappingRun) 0 ["r1"] (some "a")
      (by decide +kernel)
  obtain ⟨entry', response', _, hentry', hcarries', hsettled', hphase', hstatus', hbody', htext'⟩ :=
    @exists_answered (runs sampleGateway.step .initial overlappingRun) 1 ["r2"] (some "b")
      (by decide +kernel)
  refine ⟨entry, entry', response, response', hentry, hentry', hcarries, hcarries', hsettled,
    hsettled', by decide +kernel, by decide +kernel, hphase, hphase', hstatus, hstatus',
    fun heq => ?_⟩
  cases hbody.symm.trans (heq.trans hbody')
  exact absurd (htext.symm.trans htext') (by decide)

theorem sampleMapper_rereads (node node' : JsonNode)
    (h : sampleMapper.readTree (sampleMapper.write node) = some node') : node' = node := by
  obtain ⟨htext, hread⟩ : writeNode node = "\x7b\x7d" ∧ .object [] = node' := by
    simpa [sampleMapper] using h
  have hchars := congrArg String.toList htext
  rw [← hread]
  cases node with
  | object members =>
    cases members with
    | nil => rfl
    | cons => simp [writeNode, writeMembers] at hchars
  | integer n =>
    cases n with
    | ofNat n =>
      change (Nat.repr n).toList = _ at hchars
      rw [Nat.repr, String.toList_ofList] at hchars
      have hbrace : '\x7b' ∈ Nat.toDigits 10 n := by simp [hchars]
      exact absurd (Nat.isDigit_of_mem_toDigits (by decide) (by decide) hbrace) (by decide)
    | negSucc n =>
      change ("-" ++ Nat.repr (n + 1)).toList = _ at hchars
      simp at hchars
  | boolean b => cases b <;> simp [writeNode] at hchars
  | _ => simp [writeNode] at hchars

/-- The first request of the key, up to its answer. -/
def firstRun : List Action :=
  .submit 0 sampleKeyedRequest :: List.replicate 6 (answerWith 0 "r1" "")

/-- A second request of the key, up to its answer. -/
def secondRun : List Action := .submit 1 sampleKeyedRequest :: List.replicate 2 (answerWith 1 "" "")

theorem runs_requests_of_ne {g : Gateway} {s : State} {actions : List Action} {j : ℕ}
    (h : ∀ action ∈ actions, action.index ≠ j) :
    (runs g.step s actions).requests j = s.requests j := by
  induction actions generalizing s with
  | nil => rfl
  | cons action _ ih =>
    rw [runs_cons, ih fun a ha => h a (List.mem_cons_of_mem _ ha)]
    exact step_requests_of_ne g s (h _ (List.mem_cons_self ..))

theorem orderly_answerWith (key : String × String) (s : State) (i : ℕ) (id body : String) :
    Orderly key s (answerWith i id body) := by
  have hseen : ∀ command, (Event.answered ⟨"2026-01", 1, id⟩ ⟨200, body, "", 0⟩).Seen command := by
    intro command
    cases command with
    | settle => exact nofun
    | save => exact ⟨_, _, rfl⟩
    | _ => trivial
  exact fun _ _ _ => ⟨fun _ _ _ => hseen _, fun _ _ _ _ => hseen _⟩

/-- The second request is answered with what the first has been answered with, and settles
nothing. -/
theorem replayed_sample : ∃ (actions : List Action) (entry entry' : Entry)
    (response response' : ProxyResponse),
    Meets sampleGateway.step (Orderly ("key_1", "k")) .initial actions ∧
    (runs sampleGateway.step .initial actions).requests 0 = some entry ∧
    (runs sampleGateway.step .initial actions).requests 1 = some entry' ∧
    entry.phase = .ended (.answered response) ∧ entry'.phase = .ended (.answered response') ∧
    response.status = 200 ∧ response'.status = 200 ∧ response.body = response'.body ∧
    entry.settled = ["r1"] ∧ entry'.settled = [] := by
  have hothers : ∀ j ≠ 0, (runs sampleGateway.step .initial firstRun).requests j = none := by
    refine fun j hj => runs_requests_of_ne fun _ haction => ?_
    rcases List.mem_cons.mp haction with rfl | haction
    · exact hj.symm
    · cases List.eq_of_mem_replicate haction
      exact hj.symm
  have hended : ((runs sampleGateway.step .initial firstRun).requests 0).map (·.phase.isEnded) =
      some true := by decide +kernel
  have hmeets : Meets sampleGateway.step (Orderly ("key_1", "k")) .initial
      (firstRun ++ secondRun) := by
    refine (meets_append _).mpr ⟨⟨fun _ _ _ hj => (by cases hj), ?_⟩, fun _ j entry hj _ => ?_, ?_⟩
    · iterate 6 refine ⟨orderly_answerWith _ _ _ _ _, ?_⟩
      trivial
    · by_cases hj0 : j = 0
      · rw [hj0] at hj
        rw [hj] at hended
        exact Option.some.inj hended
      · cases (hothers j hj0).symm.trans hj
    · iterate 2 refine ⟨orderly_answerWith _ _ _ _ _, ?_⟩
      trivial
  obtain ⟨entry, response, _, hentry, hcarries, hsettled, hphase, hstatus, -⟩ :=
    @exists_answered (runs sampleGateway.step .initial (firstRun ++ secondRun)) 0 ["r1"] none
      (by decide +kernel)
  obtain ⟨entry', response', _, hentry', hcarries', hsettled', hphase', hstatus', -⟩ :=
    @exists_answered (runs sampleGateway.step .initial (firstRun ++ secondRun)) 1 [] none
      (by decide +kernel)
  refine ⟨_, entry, entry', response, response', hmeets, hentry, hentry', hphase, hphase', hstatus,
    hstatus', ?_, hsettled, hsettled'⟩
  exact ((answered_once_of_orderly sampleMapper_rereads (by decide) hmeets).2.2 0 1 _ _
    response _ hentry hentry' hcarries hcarries' hphase hphase' (by rw [hstatus]; rfl)
    (by rw [hstatus']; rfl)).2

end RouteSmith.Model.JavaGateway
