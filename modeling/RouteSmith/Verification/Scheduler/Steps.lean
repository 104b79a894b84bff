import RouteSmith.Model.LocalScheduler

/-! # What a step of the local scheduler can do -/

namespace RouteSmith.Model

open Numeric Store

namespace SchedulerState

variable (state : SchedulerState)

theorem queue_setQueue (workload workload' : WorkloadClass) (entries : List QueuedRequest) :
    (state.setQueue workload entries).queue workload' =
      if workload' = workload then entries else state.queue workload' := by
  cases workload <;> cases workload' <;> rfl

@[simp] theorem setQueue_runningByUser (workload : WorkloadClass) (entries : List QueuedRequest) :
    (state.setQueue workload entries).runningByUser = state.runningByUser := by
  cases workload <;> rfl

@[simp] theorem setQueue_queuedByUser (workload : WorkloadClass) (entries : List QueuedRequest) :
    (state.setQueue workload entries).queuedByUser = state.queuedByUser := by
  cases workload <;> rfl

@[simp] theorem setQueue_nextId (workload : WorkloadClass) (entries : List QueuedRequest) :
    (state.setQueue workload entries).nextId = state.nextId := by
  cases workload <;> rfl

/-- A request that has been put into its queue. -/
structure Joined (config : LocalSchedulerConfig) (call : AcquireCall) (notify now : ℕ) (id : U64)
    (after : SchedulerState) : Prop where
  perUser : state.queuedByUser.count call.userId < config.queuedPerUser
  global : (state.queue call.workload).length < config.globalQueue call.workload
  id_eq : id = state.nextId + .ofNat _ 1
  nextId : after.nextId = id
  runningByUser : after.runningByUser = state.runningByUser
  queuedByUser : after.queuedByUser = state.queuedByUser.raise call.userId
  queue : ∀ workload, after.queue workload = if workload = call.workload then
    state.queue call.workload ++ [⟨id, now, notify⟩] else state.queue workload

variable {state} {config : LocalSchedulerConfig} {call : AcquireCall} {notify now : ℕ} {id : U64}
  {after : SchedulerState}

theorem joined_of_queueRequest
    (h : state.queueRequest config call notify now = .ok (id, after)) :
    state.Joined config call notify now id after := by
  simp only [queueRequest] at h
  split_ifs at h with huser hglobal
  cases h
  exact
    { perUser := not_le.mp huser
      global := not_le.mp hglobal
      id_eq := rfl
      nextId := setQueue_nextId ..
      runningByUser := setQueue_runningByUser ..
      queuedByUser := setQueue_queuedByUser ..
      queue := fun workload => by
        cases workload <;> cases call.workload <;> rfl }

theorem count_lt_of_isFront {workload : WorkloadClass} {user : String}
    (h : state.isFront config id workload user = true) :
    state.runningByUser.count user < config.executingPerUser := by
  simp only [isFront] at h
  split_ifs at h with hlimit
  exact not_le.mp hlimit

end SchedulerState

namespace AcquirePhase

/-- The call, or its lease, has the execution permit. -/
def holdsPermit : AcquirePhase → Bool
  | permitted | refused | admitted _ | unqueued | counting | leased _ | releasing => true
  | _ => false

/-- The call has returned a lease whose `drop` has not begun. -/
def isLeased : AcquirePhase → Bool
  | leased _ => true
  | _ => false

/-- The number of the call's place in its queue. -/
def entryId? : AcquirePhase → Option U64
  | queued id | polling id _ | front id _ | checking id _ | waiting id _ | admitted id
  | expired id | cancelled id => some id
  | _ => none

/-- The call has been found at the front, or has a lease. -/
def passedFront : AcquirePhase → Bool
  | front _ _ | admitted _ | unqueued | counting | leased _ => true
  | _ => false

/-- The call looks for the permit before it waits again. -/
def isAlert : AcquirePhase → Bool
  | polling _ _ | front _ _ => true
  | _ => false

/-- The next operation is `notify_next`. -/
def notifies : AcquirePhase → Bool
  | queued _ | unqueued | leaving | released => true
  | _ => false

/-- The future is gone. -/
def isCancelled : AcquirePhase → Bool
  | cancelled _ => true
  | _ => false

/-- The call has gone astray: it gives the permit back unused, or its future is gone. -/
def isStray : AcquirePhase → Bool
  | refused | cancelled _ => true
  | _ => false

variable {phase : AcquirePhase}

theorem isCancelled_of_not_isStray (h : phase.isStray = false) : phase.isCancelled = false := by
  cases phase <;> first | rfl | cases h

/-- The lease exists: it has the permit still. -/
def hasLease : AcquirePhase → Bool
  | leased _ | releasing => true
  | _ => false

/-- Neither `acquire` nor the `drop` of a lease is between two of its operations; a call may be at
the `await`. -/
def isResting : AcquirePhase → Bool
  | idle | waiting _ _ | finished _ | leased _ | cancelled _ => true
  | _ => false

theorem holdsPermit_of_hasLease (h : phase.hasLease = true) : phase.holdsPermit = true := by
  cases phase <;> first | rfl | cases h

theorem hasLease_eq_isLeased (h : phase.isResting = true) : phase.hasLease = phase.isLeased := by
  cases phase <;> first | rfl | cases h

/-- Two phases with the same claim to the permit and to a place in a queue. -/
structure SameRole (p q : AcquirePhase) : Prop where
  holdsPermit : q.holdsPermit = p.holdsPermit
  isLeased : q.isLeased = p.isLeased
  entryId? : q.entryId? = p.entryId?
  passedFront : q.passedFront = true → p.passedFront = true
  isStray : q.isStray = p.isStray

end AcquirePhase

namespace SchedulerSystem

variable (config : LocalSchedulerConfig) (call : ℕ → AcquireCall) (s : SchedulerSystem)

/-- What an action can do to the permit or to the state, with the conditions under which it does
so. -/
inductive Alters : SchedulerAction → SchedulerSystem → Prop
  | take {action} (n : ℕ) (phase : AcquirePhase)
      (hcall : s.calls n = .entered ∧ phase = .permitted ∨
        ∃ id deadline, s.calls n = .front id deadline ∧ phase = .admitted id)
      (hexecution : s.execution ≠ 0) :
      Alters action ({ s with execution := s.execution - 1 }.setCall n phase)
  | begin {action} (n : ℕ) (running : Counters)
      (hcall : s.calls n = .permitted ∧
          s.state.runningByUser.count (call n).userId < config.executingPerUser ∨
        s.calls n = .counting)
      (hrunning : ∀ user, running.count user =
        s.state.runningByUser.count user + if user = (call n).userId then 1 else 0) :
      Alters action ({ s with state := { s.state with runningByUser := running } }.setCall n
        (.leased s.now))
  | refuse {action} (n : ℕ) (running : Counters) (hcall : s.calls n = .permitted)
      (hlimit : config.executingPerUser ≤ s.state.runningByUser.count (call n).userId)
      (hrunning : ∀ user, running.count user = s.state.runningByUser.count user) :
      Alters action
        ({ s with state := { s.state with runningByUser := running } }.setCall n .refused)
  | giveBack {action} (n : ℕ) (phase : AcquirePhase)
      (hcall : s.calls n = .refused ∧ phase = .estimating ∨
        s.calls n = .releasing ∧ phase = .released) :
      Alters action (s.giveBack n phase)
  | endLease {action} (n started elapsed : ℕ) (hcall : s.calls n = .leased started) :
      Alters action
        ({ s with state := s.state.endLease (call n).userId elapsed }.setCall n .releasing)
  | enqueue (n : ℕ) (id : U64) (state : SchedulerState) (hcall : s.calls n = .queueing)
      (hqueue : s.state.queueRequest config (call n) n s.now = .ok (id, state)) :
      Alters (.advance n) ({ s with state }.setCall n (.queued id))
  | unqueue {action} (n : ℕ) (id : U64) (phase : AcquirePhase)
      (hcall : s.calls n = .admitted id ∧ phase = .unqueued ∨
        s.calls n = .expired id ∧ phase = .leaving) :
      Alters action (s.unqueue n (call n) id phase)

/-- What an action can do. -/
inductive Step : SchedulerAction → SchedulerSystem → Prop
  | alter {action t} (h : Alters config call s action t) : Step action t
  | rest {action} : Step action s
  | tick {action} (elapsed : ℕ) : Step action { s with now := s.now + elapsed }
  | move {action} (n : ℕ) (phase : AcquirePhase) (hrole : (s.calls n).SameRole phase)
      (hcalm : (s.calls n).isAlert = false) (hsilent : (s.calls n).notifies = false) :
      Step action (s.setCall n phase)
  | atFront {action} (n : ℕ) (id : U64) (deadline : ℕ) (hcall : s.calls n = .polling id deadline)
      (hfront : s.state.isFront config id (call n).workload (call n).userId = true) :
      Step action (s.setCall n (.front id deadline))
  | notFront {action} (n : ℕ) (id : U64) (deadline : ℕ) (hcall : s.calls n = .polling id deadline)
      (hfront : s.state.isFront config id (call n).workload (call n).userId = false) :
      Step action (s.setCall n (.checking id deadline))
  | miss {action} (n : ℕ) (id : U64) (deadline : ℕ) (hcall : s.calls n = .front id deadline)
      (hexecution : s.execution = 0) : Step action (s.setCall n (.checking id deadline))
  | notify {action} (n : ℕ) (phase : AcquirePhase) (hrole : (s.calls n).SameRole phase)
      (hnotifies : (s.calls n).notifies = true) : Step action (s.notifyNext.setCall n phase)
  | wake {action} (n : ℕ) (id : U64) (deadline : ℕ) (notified : ℕ → Bool)
      (hcall : s.calls n = .waiting id deadline)
      (hnotified : ∀ i, i ≠ n → notified i = s.notified i) :
      Step action ({ s with notified }.setCall n (.polling id deadline))
  | cancel (n : ℕ) (id : U64) (deadline : ℕ) (hcall : s.calls n = .waiting id deadline) :
      Step (.cancel n) (s.setCall n (.cancelled id))

variable {config call s}

@[simp] theorem setCall_calls_self (n : ℕ) (phase : AcquirePhase) :
    (s.setCall n phase).calls n = phase :=
  Function.update_self _ _ _

variable {n : ℕ} {action : SchedulerAction}

theorem setCall_calls_of_ne {i : ℕ} (phase : AcquirePhase) (hi : i ≠ n) :
    (s.setCall n phase).calls i = s.calls i :=
  Function.update_of_ne hi _ _

variable {after before phase : AcquirePhase} {t : SchedulerSystem}

/-- What a call's new phase shares with the old one, all calls share. -/
theorem setCall_view {β : Type} (f : AcquirePhase → β) (h : f phase = f (s.calls n)) (i : ℕ) :
    f ((s.setCall n phase).calls i) = f (s.calls i) := by
  by_cases hi : i = n
  · subst hi
    rwa [setCall_calls_self]
  · rw [setCall_calls_of_ne _ hi]

@[simp] theorem notifyNext_calls : s.notifyNext.calls = s.calls := by
  rw [notifyNext]
  split <;> rfl

@[simp] theorem notifyNext_state : s.notifyNext.state = s.state := by
  rw [notifyNext]
  split <;> rfl

@[simp] theorem notifyNext_execution : s.notifyNext.execution = s.execution := by
  rw [notifyNext]
  split <;> rfl

theorem Step.of_move (hcall : s.calls n = before) (hrole : before.SameRole after)
    (hcalm : before.isAlert = false) (hsilent : before.notifies = false) :
    Step config call s action (s.setCall n after) := by
  subst hcall
  exact .move n _ hrole hcalm hsilent

theorem Step.of_notify (hcall : s.calls n = before) (hrole : before.SameRole after)
    (hnotifies : before.notifies = true) :
    Step config call s action (s.notifyNext.setCall n after) := by
  subst hcall
  exact .notify n _ hrole hnotifies

theorem alters_countOrRefuse (hcall : s.calls n = .permitted) :
    Alters config call s action (s.countOrRefuse config n (call n).userId) := by
  simp only [countOrRefuse, Counters.count_orDefault]
  split_ifs with hlimit
  · refine .begin n _ (.inl ⟨hcall, hlimit⟩) fun _ => ?_
    rw [Counters.count_raise, Counters.count_orDefault]
  · exact .refuse n _ hcall (not_lt.mp hlimit) fun _ => Counters.count_orDefault ..

theorem step_await {id : U64} {deadline : ℕ} (hcall : s.calls n = .waiting id deadline) :
    Step config call s action (s.await n id deadline) := by
  rw [await]
  split_ifs
  · exact .wake n id _ _ hcall fun i hi => Function.update_of_ne hi _ _
  · exact .wake n id _ _ hcall fun _ _ => rfl
  · exact .rest

theorem step_advance (n : ℕ) : Step config call s (.advance n) (s.advance config call n) := by
  cases hcall : s.calls n <;> simp only [advance, hcall]
  case entered =>
    rw [tryAcquire]
    split_ifs with hexecution
    · exact .of_move hcall ⟨rfl, rfl, rfl, nofun, rfl⟩ rfl rfl
    · exact .alter (.take n _ (.inl ⟨hcall, rfl⟩) hexecution)
  case permitted => exact .alter (alters_countOrRefuse hcall)
  case refused => exact .alter (.giveBack n _ (.inl ⟨hcall, rfl⟩))
  case estimating =>
    rw [estimate]
    split_ifs <;> exact .of_move hcall ⟨rfl, rfl, rfl, nofun, rfl⟩ rfl rfl
  case queueing =>
    rw [enqueue]
    split
    · exact .of_move hcall ⟨rfl, rfl, rfl, nofun, rfl⟩ rfl rfl
    · next hqueue => exact .alter (.enqueue n _ _ hcall hqueue)
  case queued => exact .of_notify hcall ⟨rfl, rfl, rfl, nofun, rfl⟩ rfl
  case polling =>
    split_ifs with hfront
    · exact .atFront n _ _ hcall hfront
    · exact .notFront n _ _ hcall (by simpa using hfront)
  case front =>
    rw [tryAcquire]
    split_ifs with hexecution
    · exact .miss n _ _ hcall hexecution
    · exact .alter (.take n _ (.inr ⟨_, _, hcall, rfl⟩) hexecution)
  case checking =>
    split_ifs <;> exact .of_move hcall ⟨rfl, rfl, rfl, nofun, rfl⟩ rfl rfl
  case waiting => exact step_await hcall
  case admitted => exact .alter (.unqueue n _ _ (.inl ⟨hcall, rfl⟩))
  case unqueued => exact .of_notify hcall ⟨rfl, rfl, rfl, fun _ => rfl, rfl⟩ rfl
  case counting => exact .alter (.begin n _ (.inr hcall) fun _ => Counters.count_raise ..)
  case expired => exact .alter (.unqueue n _ _ (.inr ⟨hcall, rfl⟩))
  case leaving => split_ifs <;> exact .of_notify hcall ⟨rfl, rfl, rfl, nofun, rfl⟩ rfl
  case answering => exact .of_move hcall ⟨rfl, rfl, rfl, nofun, rfl⟩ rfl rfl
  case releasing => exact .alter (.giveBack n _ (.inr ⟨hcall, rfl⟩))
  case released => exact .of_notify hcall ⟨rfl, rfl, rfl, nofun, rfl⟩ rfl
  all_goals exact .rest

theorem step_step (action : SchedulerAction) :
    Step config call s action (s.step config call action) := by
  cases action with
  | start n =>
    cases hcall : s.calls n <;> simp only [step, hcall]
    case idle => exact .of_move hcall ⟨rfl, rfl, rfl, nofun, rfl⟩ rfl rfl
    all_goals exact .rest
  | advance n => exact step_advance n
  | dropLease n =>
    cases hcall : s.calls n <;> simp only [step, hcall]
    case leased => exact .alter (.endLease n _ _ hcall)
    all_goals exact .rest
  | cancel n =>
    cases hcall : s.calls n <;> simp only [step, hcall]
    case waiting => exact .cancel n _ _ hcall
    all_goals exact .rest
  | tick elapsed => exact .tick elapsed

/-- Neither the permit nor the state has changed, nor which calls have a share in them. -/
structure Unmoved (s t : SchedulerSystem) : Prop where
  execution : t.execution = s.execution
  state : t.state = s.state
  holdsPermit : ∀ n, (t.calls n).holdsPermit = (s.calls n).holdsPermit
  isLeased : ∀ n, (t.calls n).isLeased = (s.calls n).isLeased
  entryId? : ∀ n, (t.calls n).entryId? = (s.calls n).entryId?

theorem Unmoved.of_setCall (hexecution : t.execution = s.execution) (hstate : t.state = s.state)
    (hcalls : t.calls = s.calls) (hholds : phase.holdsPermit = (s.calls n).holdsPermit)
    (hleased : phase.isLeased = (s.calls n).isLeased)
    (hentry : phase.entryId? = (s.calls n).entryId?) : Unmoved s (t.setCall n phase) where
  execution := hexecution
  state := hstate
  holdsPermit i := by rw [setCall_view AcquirePhase.holdsPermit (by rw [hholds, hcalls]), hcalls]
  isLeased i := by rw [setCall_view AcquirePhase.isLeased (by rw [hleased, hcalls]), hcalls]
  entryId? i := by rw [setCall_view AcquirePhase.entryId? (by rw [hentry, hcalls]), hcalls]

theorem Step.unmoved_or_alters (h : Step config call s action t) :
    Unmoved s t ∨ Alters config call s action t := by
  cases h with
  | alter h => exact .inr h
  | rest | tick => exact .inl ⟨rfl, rfl, fun _ => rfl, fun _ => rfl, fun _ => rfl⟩
  | move n phase hrole =>
    exact .inl (.of_setCall rfl rfl rfl hrole.holdsPermit hrole.isLeased hrole.entryId?)
  | notify n phase hrole =>
    exact .inl (.of_setCall notifyNext_execution notifyNext_state notifyNext_calls
      hrole.holdsPermit hrole.isLeased hrole.entryId?)
  | atFront n id deadline hcall | notFront n id deadline hcall | miss n id deadline hcall
  | wake n id deadline notified hcall | cancel n id deadline hcall =>
    exact .inl (.of_setCall rfl rfl rfl (by rw [hcall]; rfl) (by rw [hcall]; rfl)
      (by rw [hcall]; rfl))

end SchedulerSystem

end RouteSmith.Model
