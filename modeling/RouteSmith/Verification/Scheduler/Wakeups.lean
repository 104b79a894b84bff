import RouteSmith.Verification.Scheduler.Capacity

/-! # Waiting calls

Which calls the places in the queues belong to, and that the first of them is not left asleep while
the permit is free.
-/

namespace RouteSmith.Model

open Control Numeric Store SchedulerSystem AcquirePhase SchedulerState

namespace SchedulerState

variable {state : SchedulerState} {config : LocalSchedulerConfig} {entry : QueuedRequest}

theorem mem_queue_of_next (h : state.next? = some entry) :
    ∃ workload, entry ∈ state.queue workload := by
  rcases Option.or_eq_some_iff.mp h with hhead | ⟨-, hhead⟩
  · exact ⟨.interactive, List.mem_of_head? hhead⟩
  · exact ⟨.batch, List.mem_of_head? hhead⟩

/-- The request that `notify_next` wakes is the one that finds itself at the front. -/
theorem isFront_of_next {workload : WorkloadClass} {user : String}
    (h : state.next? = some entry)
    (hworkload : ∀ other, entry ∈ state.queue other → other = workload)
    (hlimit : state.runningByUser.count user < config.executingPerUser) :
    state.isFront config entry.id workload user = true := by
  rw [isFront.eq_def, if_neg hlimit.not_ge]
  rcases Option.or_eq_some_iff.mp h with hhead | ⟨hempty, hhead⟩
  · rw [← hworkload .interactive (List.mem_of_head? hhead)]
    simp [hhead]
  · rw [← hworkload .batch (List.mem_of_head? hhead)]
    simp [List.head?_eq_none_iff.mp hempty, hhead]

end SchedulerState

namespace SchedulerSystem

variable {config : LocalSchedulerConfig} {call : ℕ → AcquireCall} {s t : SchedulerSystem}
  {action : SchedulerAction}

/-! ## No wake-up is lost -/

/-- No call is dropped while it waits. -/
def KeepsWaiting (s : SchedulerSystem) (action : SchedulerAction) : Prop :=
  ∀ n id deadline, action = .cancel n → s.calls n ≠ .waiting id deadline

/-- No call gives the permit back unused, and none is gone. -/
def NoneStray (s : SchedulerSystem) : Prop := ∀ n, (s.calls n).isStray = false

variable {n : ℕ} {phase : AcquirePhase}

theorem NoneStray.setCall (h : NoneStray s) (hcalls : t.calls = s.calls)
    (hphase : phase.isStray = false) : NoneStray (t.setCall n phase) := by
  intro m
  by_cases hm : m = n
  · rwa [hm, setCall_calls_self]
  · rw [setCall_calls_of_ne _ hm, hcalls]
    exact h m

theorem NoneStray.step {holder : Option ℕ} (hlimit : 0 < config.executingPerUser)
    (hstep : Step config call s action t) (hkeeps : KeepsWaiting s action)
    (hlent : Lent call s holder) (h : NoneStray s) : NoneStray t := by
  cases hstep with
  | alter halters =>
    cases halters with
    | take n phase hcall =>
      rcases hcall with ⟨-, rfl⟩ | ⟨id, deadline, -, rfl⟩ <;> exact h.setCall rfl rfl
    | begin | endLease | enqueue => exact h.setCall rfl rfl
    | refuse n running hcall =>
      -- a call that has just got the permit finds all counters at zero
      have hzero := hlent.running_eq_zero
        (.inr ⟨hlent.holder_eq hcall rfl, by rw [hcall]; rfl⟩) (call n).userId
      omega
    | giveBack n phase hcall | unqueue n id phase hcall =>
      rcases hcall with ⟨-, rfl⟩ | ⟨-, rfl⟩ <;> exact h.setCall rfl rfl
  | rest | tick => exact h
  | move n phase hrole => exact h.setCall rfl (hrole.isStray.trans (h n))
  | notify n phase hrole => exact h.setCall notifyNext_calls (hrole.isStray.trans (h n))
  | atFront | notFront | miss | wake => exact h.setCall rfl rfl
  | cancel n id deadline hcall => exact absurd hcall (hkeeps n id deadline rfl)

/-- While the permit is free, the first call in the queues looks for it, has been notified, or is
about to be. -/
def Watched (s : SchedulerSystem) : Prop :=
  s.execution ≠ 0 → ∀ entry, s.state.next? = some entry →
    (s.calls entry.notify).isAlert = true ∨ s.notified entry.notify = true ∨
      ∃ n, (s.calls n).notifies = true

theorem watched_of_taken (h : s.execution = 0) : Watched s := absurd h

/-- A call that is about to notify the first of the queues makes good for everything else. -/
theorem watched_of_notifies (h : (s.calls n).notifies = true) : Watched s :=
  fun _ _ _ => .inr (.inr ⟨n, h⟩)

/-- A call that does not notify moves on; if it is the first of the queues, it still looks for the
permit or has not looked for it before. -/
theorem Watched.setCall (h : Watched s) (hexecution : t.execution = s.execution)
    (hnext : t.state.next? = s.state.next?) (hcalls : t.calls = s.calls)
    (hsilent : (s.calls n).notifies = false) (hnotified : ∀ i, i ≠ n → t.notified i = s.notified i)
    (hself : s.execution ≠ 0 → ∀ entry, s.state.next? = some entry → entry.notify = n →
      phase.isAlert = true ∨ (s.calls n).isAlert = false ∧ t.notified n = s.notified n) :
    Watched (t.setCall n phase) := by
  intro hfree entry hentry
  change t.execution ≠ 0 at hfree
  rw [hexecution] at hfree
  have hentry' := hnext.symm.trans hentry
  change _ ∨ t.notified entry.notify = true ∨ _
  have hstill : (∃ m, (s.calls m).notifies = true) →
      ∃ m, ((t.setCall n phase).calls m).notifies = true := by
    rintro ⟨m, hm⟩
    have hmn : m ≠ n := by
      rintro rfl
      rw [hsilent] at hm
      cases hm
    exact ⟨m, by rwa [setCall_calls_of_ne _ hmn, hcalls]⟩
  have hwakes := h hfree _ hentry'
  by_cases hn : entry.notify = n
  · rcases hself hfree entry hentry' hn with halert | ⟨hcalm, hkept⟩
    · rw [hn, setCall_calls_self]
      exact .inl halert
    · rw [hn, hcalm] at hwakes
      rw [hn, hkept]
      rcases hwakes with hwake | hwake | hwake
      · cases hwake
      · exact .inr (.inl hwake)
      · exact .inr (.inr (hstill hwake))
  · rw [setCall_calls_of_ne _ hn, hcalls, hnotified _ hn]
    exact hwakes.imp_right (.imp_right hstill)

theorem watched_notifyNext : Watched (s.notifyNext.setCall n phase) := by
  intro _ entry hentry
  have hentry' : s.state.next? = some entry := by simpa [setCall] using hentry
  simp [setCall, notifyNext, hentry']

theorem Watched.step (hlimit : 0 < config.executingPerUser)
    (hstep : Step config call s action t) (hsound : Sound config call s)
    (hstray : NoneStray s) (h : Watched s) : Watched t := by
  obtain ⟨holder, hlent⟩ := hsound.lent
  cases hstep with
  | alter halters =>
    cases halters with
    | take =>
      refine watched_of_taken ?_
      have := hlent.execution
      simp only [SchedulerSystem.setCall]
      split_ifs at this <;> omega
    | begin n _ hcall =>
      refine watched_of_taken ?_
      have hholds : (s.calls n).holdsPermit = true := by
        rcases hcall with ⟨hcall, -⟩ | hcall <;> rw [hcall] <;> rfl
      exact hlent.execution.trans (by rw [(hlent.holdsPermit n).mp hholds]; rfl)
    | refuse _ _ hcall | endLease _ _ _ hcall =>
      exact watched_of_taken (hlent.execution.trans (by rw [hlent.holder_eq hcall rfl]; rfl))
    | giveBack n phase hcall =>
      rcases hcall with ⟨hcall, -⟩ | ⟨-, rfl⟩
      · have := hstray n
        rw [hcall] at this
        cases this
      · exact watched_of_notifies (by rw [giveBack, setCall_calls_self]; rfl)
    | enqueue n => exact watched_of_notifies (by rw [setCall_calls_self]; rfl)
    | unqueue n _ _ hcall =>
      refine watched_of_notifies (n := n) ?_
      rw [unqueue, setCall_calls_self]
      rcases hcall with ⟨-, rfl⟩ | ⟨-, rfl⟩ <;> rfl
  | rest | tick => exact h
  | move _ _ _ hcalm hsilent =>
    exact h.setCall rfl rfl rfl hsilent (fun _ _ => rfl) fun _ _ _ _ => .inr ⟨hcalm, rfl⟩
  | atFront _ _ _ hcall =>
    exact h.setCall rfl rfl rfl (by rw [hcall]; rfl) (fun _ _ => rfl) fun _ _ _ _ => .inl rfl
  | notFront n id deadline hcall hfront =>
    refine h.setCall rfl rfl rfl (by rw [hcall]; rfl) (fun _ _ => rfl) ?_
    -- the first call finds itself at front while is free
    rintro hfree entry hentry rfl
    have howned := fun other => hsound.queued.owned other entry
    obtain ⟨_, hmem⟩ := mem_queue_of_next hentry
    have hid : entry.id = id := by
      have := (howned _ hmem).1
      rw [hcall] at this
      exact (Option.some.inj this).symm
    have hnone : holder = none := by
      by_contra hne
      exact hfree (by rw [hlent.execution, if_neg hne])
    have hzero := hlent.running_eq_zero (n := 0) (.inl hnone) (call entry.notify).userId
    rw [← hid, isFront_of_next hentry (fun _ hmem => (howned _ hmem).2.symm)
      (by omega)] at hfront
    cases hfront
  | miss _ _ _ _ hexecution => exact watched_of_taken hexecution
  | notify => exact watched_notifyNext
  | wake _ _ _ _ hcall hnotified =>
    exact h.setCall rfl rfl rfl (by rw [hcall]; rfl) hnotified fun _ _ _ _ => .inl rfl
  | cancel _ _ _ hcall =>
    exact h.setCall rfl rfl rfl (by rw [hcall]; rfl) (fun _ _ => rfl)
      fun _ _ _ _ => .inr ⟨by rw [hcall]; rfl, rfl⟩

/-! ## No call waits for ever -/

@[simp] theorem notifyNext_now : s.notifyNext.now = s.now := by
  rw [notifyNext]
  split <;> rfl

/-- An operation of a call leaves the clock and the other calls alone. -/
structure Apart (m : ℕ) (s t : SchedulerSystem) : Prop where
  now : t.now = s.now
  calls : ∀ n, n ≠ m → t.calls n = s.calls n

theorem Apart.setCall {m : ℕ} {phase : AcquirePhase} (hnow : t.now = s.now)
    (hcalls : t.calls = s.calls) : Apart m s (t.setCall m phase) :=
  ⟨hnow, fun n hn => by rw [setCall_calls_of_ne _ hn, hcalls]⟩

theorem advance_apart (m : ℕ) : Apart m s (s.advance config call m) := by
  cases hcall : s.calls m <;> simp only [advance, hcall]
  case entered | front =>
    rw [tryAcquire]
    split_ifs <;> exact .setCall rfl rfl
  case permitted =>
    simp only [countOrRefuse]
    split_ifs <;> exact .setCall rfl rfl
  case estimating =>
    rw [estimate]
    split_ifs <;> exact .setCall rfl rfl
  case queueing =>
    rw [enqueue]
    split <;> exact .setCall rfl rfl
  case queued | unqueued | released => exact .setCall notifyNext_now notifyNext_calls
  case polling | checking => split_ifs <;> exact .setCall rfl rfl
  case waiting =>
    rw [await]
    split_ifs <;> first | exact .setCall rfl rfl | exact ⟨rfl, fun _ _ => rfl⟩
  case leaving => split_ifs <;> exact .setCall notifyNext_now notifyNext_calls
  case refused | releasing | admitted | expired | counting | answering => exact .setCall rfl rfl
  all_goals exact ⟨rfl, fun _ _ => rfl⟩

theorem now_le_step (action : SchedulerAction) : s.now ≤ (s.step config call action).now := by
  cases action with
  | start n | dropLease n | cancel n =>
    simp only [step]
    split <;> exact le_rfl
  | advance n => exact (advance_apart n).now.ge
  | tick => exact Nat.le_add_right _ _

/-- Only its own operations and the loss of its future move a call that has a place in a queue. -/
theorem step_calls_of_entry (hentry : (s.calls n).entryId? ≠ none) (hadvance : action ≠ .advance n)
    (hcancel : action ≠ .cancel n) : (s.step config call action).calls n = s.calls n := by
  cases action with
  | start =>
    simp only [step]
    split
    · next hidle =>
      refine setCall_calls_of_ne _ ?_
      rintro rfl
      exact hentry (by rw [hidle]; rfl)
    · rfl
  | advance m => exact (advance_apart m).calls n fun hn => hadvance (by rw [hn])
  | dropLease =>
    simp only [step]
    split
    · next hleased =>
      refine setCall_calls_of_ne _ ?_
      rintro rfl
      exact hentry (by rw [hleased]; rfl)
    · rfl
  | cancel =>
    simp only [step]
    split
    · exact setCall_calls_of_ne _ fun hn => hcancel (by rw [hn])
    · rfl
  | tick => rfl

end SchedulerSystem

namespace AcquirePhase

/-- The call is in the loop with a deadline, or has left it. -/
def EndsBy (deadline : ℕ) : AcquirePhase → Prop
  | polling _ d | front _ d | checking _ d | waiting _ d => d = deadline
  | expired _ | admitted _ => True
  | _ => False

/-- How many operations a call needs to leave its queue once the deadline has passed. -/
def turnsLeft : AcquirePhase → ℕ
  | waiting _ _ => 5
  | polling _ _ => 4
  | front _ _ => 3
  | checking _ _ => 2
  | expired _ | admitted _ => 1
  | _ => 0

theorem EndsBy.entryId? {deadline : ℕ} {phase : AcquirePhase} (h : phase.EndsBy deadline) :
    phase.entryId? ≠ none := by
  cases phase <;> first | exact h.elim | exact Option.some_ne_none _

end AcquirePhase

namespace SchedulerSystem

variable {config : LocalSchedulerConfig} {call : ℕ → AcquireCall} {s t : SchedulerSystem}
  {action : SchedulerAction} {n d : ℕ}

theorem advance_of_endsBy (h : (s.calls n).EndsBy d) :
    ((s.advance config call n).calls n).entryId? = none ∨
      ((s.advance config call n).calls n).EndsBy d ∧
      (d ≤ s.now →
        ((s.advance config call n).calls n).turnsLeft < (s.calls n).turnsLeft) := by
  cases hcall : s.calls n <;> rw [hcall] at h <;> simp only [advance, hcall]
  case polling id deadline =>
    split_ifs <;> rw [setCall_calls_self] <;> exact .inr ⟨h, fun _ => by simp [turnsLeft]⟩
  case front id deadline =>
    rw [tryAcquire]
    split_ifs <;> rw [setCall_calls_self]
    · exact .inr ⟨h, fun _ => by simp [turnsLeft]⟩
    · exact .inr ⟨trivial, fun _ => by simp [turnsLeft]⟩
  case checking id deadline =>
    cases h
    split_ifs with hnow <;> rw [setCall_calls_self]
    · exact .inr ⟨trivial, fun _ => by simp [turnsLeft]⟩
    · exact .inr ⟨rfl, (absurd · hnow)⟩
  case waiting id deadline =>
    cases h
    rw [await]
    split_ifs with hnotified hnow
    · rw [setCall_calls_self]
      exact .inr ⟨rfl, fun _ => by simp [turnsLeft]⟩
    · rw [setCall_calls_self]
      exact .inr ⟨rfl, fun _ => by simp [turnsLeft]⟩
    · rw [hcall]
      exact .inr ⟨rfl, (absurd · hnow)⟩
  case admitted id | expired id =>
    rw [unqueue, setCall_calls_self]
    exact .inl rfl
  all_goals exact h.elim

theorem step_of_endsBy (hcancel : action ≠ .cancel n) (h : (s.calls n).EndsBy d) :
    ((s.step config call action).calls n).entryId? = none ∨
      ((s.step config call action).calls n).EndsBy d ∧
      (d ≤ s.now →
        ((s.step config call action).calls n).turnsLeft ≤ (s.calls n).turnsLeft ∧
        (action = .advance n →
          ((s.step config call action).calls n).turnsLeft < (s.calls n).turnsLeft)) := by
  by_cases hadvance : action = .advance n
  · subst hadvance
    refine (advance_of_endsBy h).imp_right fun ⟨hends, hturns⟩ => ⟨hends, fun hpast => ?_⟩
    exact ⟨(hturns hpast).le, fun _ => hturns hpast⟩
  · rw [step_calls_of_entry h.entryId? hadvance hcancel]
    exact .inr ⟨h, fun _ => ⟨le_rfl, (absurd · hadvance)⟩⟩

/-- A run without end in which every call takes its turns again and again and the clock goes on. -/
structure Fair (config : LocalSchedulerConfig) (call : ℕ → AcquireCall) (s : SchedulerSystem)
    (plan : ℕ → SchedulerAction) : Prop where
  turns : ∀ n m, ∃ k, m ≤ k ∧ plan k = .advance n
  clock : ∀ time, ∃ k, time ≤ (path (step config call) s plan k).now

variable {plan : ℕ → SchedulerAction}

theorem now_path_mono {m k : ℕ} (h : m ≤ k) :
    (path (step config call) s plan m).now ≤ (path (step config call) s plan k).now := by
  induction k, h using Nat.le_induction with
  | base => exact le_rfl
  | succ k _ ih => exact ih.trans (now_le_step (plan k))

/-- A call in the loop leaves its queue, at the latest when its deadline has passed. -/
theorem leaves_of_endsBy {m : ℕ} (hfair : Fair config call s plan)
    (hcancel : ∀ k, plan k ≠ .cancel n)
    (h : ((path (step config call) s plan m).calls n).EndsBy d) :
    ∃ k, ((path (step config call) s plan k).calls n).entryId? = none := by
  have hmeets : MeetsForever (step config call) (fun _ action => action ≠ .cancel n) s plan :=
    hcancel
  obtain ⟨past, hpast⟩ := hfair.clock d
  have hkept := path_unless (I := fun t => (t.calls n).EndsBy d)
    (J := fun t => (t.calls n).entryId? = none)
    (fun t action hcancel h => (step_of_endsBy hcancel h).imp_right And.left) hmeets h
    (le_max_left m past)
  rcases hkept with ⟨k, -, hk⟩ | hkept
  · exact ⟨k, hk⟩
  -- from here on each turn brings the call closer to its end
  obtain ⟨k, -, hk⟩ := path_leadsTo (I := fun t => (t.calls n).EndsBy d ∧ d ≤ _)
    (J := fun t => (t.calls n).entryId? = none) (fun t => (t.calls n).turnsLeft)
    (fun action => action = .advance n)
    (fun t _ hcancel h => (step_of_endsBy hcancel h.1).imp_right fun ⟨hends, hturns⟩ =>
      ⟨⟨hends, h.2.trans (now_le_step _)⟩, hturns h.2⟩)
    hmeets (hfair.turns n)
    ⟨hkept, hpast.trans (now_path_mono (le_max_right m past))⟩
  exact ⟨k, hk⟩

theorem enters_loop {id : U64} (hfair : Fair config call s plan) (hcancel : ∀ k, plan k ≠ .cancel n)
    (hcall : s.calls n = .queued id) :
    ∃ k deadline, (path (step config call) s plan k).calls n = .polling id deadline := by
  have hmeets : MeetsForever (step config call) (fun _ action => action ≠ .cancel n) s plan :=
    hcancel
  obtain ⟨k, -, hk⟩ := path_leadsTo (m := 0)
    (I := fun t => t.calls n = .queued id)
    (J := fun t => ∃ deadline, t.calls n = .polling id deadline)
    (fun _ => 0) (fun action => action = .advance n) fun t action hcancel ht => by
      by_cases hadvance : action = .advance n
      · subst hadvance
        refine .inl ⟨t.deadline config (call n), ?_⟩
        simp only [step, advance, ht]
        exact setCall_calls_self _ _
      · refine .inr ⟨?_, le_rfl, (absurd · hadvance)⟩
        rw [step_calls_of_entry (by simp [ht, entryId?]) hadvance hcancel, ht]
    hmeets (hfair.turns n) hcall
  exact ⟨k, hk⟩

theorem leaves_queue (hfair : Fair config call s plan) (hcancel : ∀ k, plan k ≠ .cancel n)
    (hstray : (s.calls n).isStray = false) :
    ∃ k, ((path (step config call) s plan k).calls n).entryId? = none := by
  cases hcall : s.calls n
  case queued id =>
    obtain ⟨k, deadline, hk⟩ := enters_loop hfair hcancel hcall
    exact leaves_of_endsBy hfair hcancel (by rw [hk]; rfl)
  case cancelled id =>
    rw [hcall] at hstray
    cases hstray
  case polling id deadline | front id deadline | checking id deadline | waiting id deadline =>
    exact leaves_of_endsBy hfair hcancel (by rw [path, hcall]; rfl)
  case admitted id | expired id =>
    exact leaves_of_endsBy (d := 0) hfair hcancel (by rw [path, hcall]; trivial)
  all_goals exact ⟨0, by rw [path, hcall]; rfl⟩

/-! ## The queues of a run -/

/-- Every place in a queue is that of a call that is still running, the first one is not left asleep
while the permit is free, and no call waits for ever. -/
structure EntriesLive (config : LocalSchedulerConfig) (call : ℕ → AcquireCall)
    (s : SchedulerSystem) : Prop where
  running : ∀ workload, ∀ entry ∈ s.state.queue workload,
    (s.calls entry.notify).entryId? = some entry.id ∧
      (s.calls entry.notify).isCancelled = false
  wakes : Watched s
  leaves : ∀ n plan, Fair config call s plan → (∀ k, plan k ≠ .cancel n) →
    ∃ k, ((path (step config call) s plan k).calls n).entryId? = none

/-- A request gets a number of its own, and no waiting call is dropped. -/
def Undropped (s : SchedulerSystem) (action : SchedulerAction) : Prop :=
  FreshId s action ∧ KeepsWaiting s action

theorem executingPerUser_of_fromEnv {env : String → Option String}
    (h : LocalSchedulerConfig.fromEnv env = .ok config) : config.executingPerUser = 1 := by
  simp only [LocalSchedulerConfig.fromEnv] at h
  split_ifs at h with hbaseline
  cases h
  exact not_not.mp (not_or.mp hbaseline).1

/-- In every run without a waiting call that is dropped, the queues hold live calls only. -/
theorem queue_entries_live (env : String → Option String)
    (hconfig : LocalSchedulerConfig.fromEnv env = .ok config) (call : ℕ → AcquireCall)
    (actions : List SchedulerAction) (hmeets : Meets (step config call) Undropped {} actions) :
    EntriesLive config call (runs (step config call) {} actions) := by
  have hlimit : 0 < config.executingPerUser := by
    rw [executingPerUser_of_fromEnv hconfig]
    exact one_pos
  obtain ⟨hsound, hstray, hwatched⟩ := runs_invariant_of_meets
    (I := fun s => Sound _ call s ∧ NoneStray s ∧ Watched s)
    (fun s _ hundropped ⟨hsound, hstray, hwatched⟩ =>
      ⟨hsound.step hundropped.1,
        hsound.lent.elim fun _ hlent =>
          hstray.step hlimit (step_step _) hundropped.2 hlent,
        hwatched.step hlimit (step_step _) hsound hstray⟩)
    hmeets ⟨sound_new, fun _ => rfl, nofun⟩
  exact
    { running := fun _ _ hentry =>
        ⟨(hsound.queued.owned _ _ hentry).1,
          isCancelled_of_not_isStray (hstray _)⟩
      wakes := hwatched
      leaves := fun n _ hfair hcancel => leaves_queue hfair hcancel (hstray n) }

/-- One call has the permit and another waits for it. -/
theorem waiting_call_live :
    EntriesLive {} crowd (runs (step {} crowd) {} (comings 0 ++ arrive 1)) ∧
      (runs (step {} crowd) {} (comings 0 ++ arrive 1)).state.interactive.length = 1 :=
  ⟨queue_entries_live (fun _ => none) rfl _ _
    (by repeat' first | exact trivial | refine ⟨⟨fun _ _ _ => by decide, nofun⟩, ?_⟩), by decide⟩

/-! ## A place without a call -/

theorem step_calls_of_cancelled {n : ℕ} (h : (s.calls n).isCancelled = true)
    (action : SchedulerAction) : (s.step config call action).calls n = s.calls n := by
  obtain ⟨id, hcall⟩ : ∃ id, s.calls n = .cancelled id := by
    cases hcall : s.calls n
    case cancelled id => exact ⟨id, rfl⟩
    all_goals simp [hcall, isCancelled] at h
  by_cases hadvance : action = .advance n
  · subst hadvance
    simp only [step, advance, hcall]
  · by_cases hcancel : action = .cancel n
    · subst hcancel
      simp only [step, hcall]
    · exact step_calls_of_entry (by simp [hcall, entryId?]) hadvance hcancel

/-- The first place of a queue stays the first until its call leaves the queue. -/
theorem Step.head_kept {entry : QueuedRequest} (hstep : Step config call s action t)
    (hqueued : Queued config call s) (workload : WorkloadClass)
    (hhead : (s.state.queue workload).head? = some entry)
    (hentry : (t.calls entry.notify).entryId? ≠ none) :
    (t.state.queue workload).head? = some entry := by
  rcases hstep.unmoved_or_alters with hsame | halters
  · rw [hsame.state, hhead]
  cases halters with
  | take | begin | refuse | giveBack | endLease => cases workload <;> exact hhead
  | enqueue _ _ state _ hqueue =>
    change (state.queue workload).head? = _
    rw [(joined_of_queueRequest hqueue).queue]
    split_ifs with hworkload
    · rw [← hworkload, List.head?_append, hhead, Option.some_or]
    · exact hhead
  | unqueue n id phase hcall =>
    have hid : (s.calls n).entryId? = some id ∧ phase.entryId? = none := by
      rcases hcall with ⟨hcall, rfl⟩ | ⟨hcall, rfl⟩ <;> rw [hcall] <;> exact ⟨rfl, rfl⟩
    have hne : entry.notify ≠ n := by
      rintro rfl
      rw [unqueue, setCall_calls_self] at hentry
      exact hentry hid.2
    obtain ⟨_, before, _, hqueue, hown, -, herase⟩ := hqueued.split hid.1
    change ((s.state.removeQueued id (call n).workload (call n).userId).queue workload).head? = _
    rw [removeQueued, queue_setQueue]
    split_ifs with hworkload
    · rw [herase]
      rw [hworkload, hqueue] at hhead
      cases before with
      | nil =>
        rw [List.nil_append, List.head?_cons, Option.some.injEq] at hhead
        exact absurd (hhead ▸ hown) hne
      | cons => exact hhead
    · cases workload <;> exact hhead

/-- Behind the place of a call that is gone no call comes to the front any more. -/
theorem dead_entry_blocks (entry : QueuedRequest) {more : List SchedulerAction}
    (hsound : Sound config call s) (hhead : s.state.interactive.head? = some entry)
    (hcancelled : (s.calls entry.notify).isCancelled = true)
    (hmeets : Meets (step config call) FreshId s more) (n : ℕ) (id : U64)
    (hid : ((runs (step config call) s more).calls n).entryId? = some id)
    (hn : n ≠ entry.notify) :
    (runs (step config call) s more).state.isFront config id (call n).workload (call n).userId =
      false := by
  obtain ⟨hsound, hhead, hcancelled⟩ := runs_invariant_of_meets
    (I := fun s => Sound _ call s ∧ s.state.interactive.head? = some _ ∧
      (s.calls _).isCancelled = true)
    (fun s _ hfresh ⟨hsound, hhead, hcancelled⟩ =>
      ⟨hsound.step hfresh, (step_step _).head_kept hsound.queued .interactive hhead (by
          rw [step_calls_of_cancelled hcancelled _,
            (hsound.queued.owned .interactive _ (List.mem_of_head? hhead)).1]
          exact nofun),
        by rw [step_calls_of_cancelled hcancelled _, hcancelled]⟩)
    hmeets ⟨hsound, hhead, hcancelled⟩
  rw [isFront.eq_def]
  split_ifs
  · rfl
  · cases (call n).workload with
    | interactive =>
      have hne : entry.id ≠ id := by
        intro heq
        refine hn (hsound.queued.unique n _ id hid ?_)
        rw [← heq]
        exact (hsound.queued.owned .interactive _ (List.mem_of_head? hhead)).1
      simp [hhead, hne]
    | batch =>
      cases hqueue : (runs (step config call) s more).state.interactive with
      | nil => simp [hqueue] at hhead
      | cons => rfl

/-- A call takes the permit, another one waits and is dropped, and the first one ends. -/
def droppedWait : List SchedulerAction :=
  comings 0 ++ arrive 1 ++ [.advance 1, .advance 1, .advance 1, .cancel 1, .dropLease 0, .advance 0,
    .advance 0]

/-- After a client has gone away while its request waited, the place of the request stays at the
head of the queue although the permit is free, and no request that comes later ever gets to the
front. -/
theorem dropped_wait_blocks_queue :
    (runs (step {} crowd) {} droppedWait).execution = 1 ∧
    (∃ entry, (runs (step {} crowd) {} droppedWait).state.next? = some entry ∧
      ((runs (step {} crowd) {} droppedWait).calls entry.notify).isCancelled = true) ∧
    ∀ more, Meets (step {} crowd) FreshId (runs (step {} crowd) {} droppedWait) more →
      ∀ n id, n ≠ 1 →
        ((runs (step {} crowd) (runs (step {} crowd) {} droppedWait) more).calls n).entryId? =
          some id →
        (runs (step {} crowd) (runs (step {} crowd) {} droppedWait) more).state.isFront {} id
          (crowd n).workload (crowd n).userId = false := by
  have hmeets : Meets (step {} crowd) FreshId {} droppedWait := by
    repeat' first | exact trivial | refine ⟨fun _ _ _ => by decide, ?_⟩
  have hsound := runs_invariant_of_meets (fun _ _ => .step) hmeets sound_new
  refine ⟨by decide, ⟨⟨.ofNat _ 1, 0, 1⟩, by decide, by decide⟩, fun _ hmore n id hn hid => ?_⟩
  exact dead_entry_blocks ⟨.ofNat _ 1, 0, 1⟩ hsound (by decide) (by decide) hmore n id
    hid hn

end SchedulerSystem

end RouteSmith.Model
