import RouteSmith.Verification.Scheduler.Wakeups

/-! # Who gets the permit next -/

namespace RouteSmith.Model

open Control Numeric List SchedulerState

theorem SchedulerState.head_of_isFront {state : SchedulerState} {config : LocalSchedulerConfig}
    {id : U64} {workload : WorkloadClass} {user : String}
    (h : state.isFront config id workload user = true) :
    (∃ entry, (state.queue workload).head? = some entry ∧ entry.id = id) ∧
      (workload = .batch → state.interactive = []) := by
  simp only [isFront] at h
  split_ifs at h
  cases workload with
  | interactive => exact ⟨by simpa [Option.any_eq_true, queue] using h, by simp⟩
  | batch =>
    rw [Bool.and_eq_true] at h
    exact ⟨by simpa [Option.any_eq_true, queue] using h.2, fun _ => isEmpty_iff.mp h.1⟩

namespace SchedulerSystem

section

variable (config : LocalSchedulerConfig) (call : ℕ → AcquireCall) (s : SchedulerSystem)
  (action : SchedulerAction)

/-- The action is one of the two calls of `try_acquire_owned`, and the permit is there. -/
def Grants (n : ℕ) : Prop :=
  action = .advance n ∧ s.execution ≠ 0 ∧
    (s.calls n = .entered ∨ ∃ id deadline, s.calls n = .front id deadline)

/-- A waiting request whose user is below the running limit. -/
def MayRun (entry : QueuedRequest) : Prop :=
  s.state.runningByUser.count (call entry.notify).userId < config.executingPerUser

/-- Whoever gets the permit overtakes no earlier request of its class, and no interactive request
unless it is one that has waited itself. -/
def InTurn : Prop :=
  ∀ n, s.Grants action n →
    (∀ entry ∈ (s.state.queue (call n).workload).takeWhile (·.notify ≠ n),
      ¬MayRun config call s entry) ∧
    ((call n).workload = .batch ∨ s.calls n = .entered → ∀ entry ∈ s.state.interactive,
      ¬MayRun config call s entry)

/-- No call arrives at a free permit while a request that may run waits in the interactive queue or
in the call's own, and no interactive request joins the queue while a batch request is between
`is_front` and the permit. -/
structure Orderly : Prop where
  fresh : FreshId s action
  arrives : ∀ n, action = .advance n → s.calls n = .entered → s.execution ≠ 0 →
    ∀ entry, entry ∈ s.state.interactive ∨ entry ∈ s.state.queue (call n).workload →
      ¬MayRun config call s entry
  joins : ∀ m, action = .advance m → s.calls m = .queueing → (call m).workload = .interactive →
    ∀ n id deadline, s.calls n = .front id deadline → (call n).workload = .interactive

/-- A call that was found at the front is there still. -/
def FrontKept : Prop :=
  ∀ n id deadline, s.calls n = .front id deadline →
    (∃ entry, (s.state.queue (call n).workload).head? = some entry ∧ entry.notify = n) ∧
      ((call n).workload = .batch → s.state.interactive = [])

end

variable {config : LocalSchedulerConfig} {call : ℕ → AcquireCall} {s t : SchedulerSystem}
  {action : SchedulerAction} {n : ℕ} {id : U64} {deadline : ℕ}

theorem not_front_of_sameRole {p q : AcquirePhase} (h : p.SameRole q) (hcalm : p.isAlert = false) :
    q ≠ .front id deadline := by
  rintro rfl
  have hpassed := h.passedFront rfl
  have hholds := h.holdsPermit
  cases p <;> first | (cases hpassed; done) | (cases hholds; done) | cases hcalm

theorem front_of_setCall {m : ℕ} {phase : AcquirePhase}
    (h : (t.setCall m phase).calls n = .front id deadline) (hphase : phase ≠ .front id deadline)
    (hcalls : t.calls = s.calls) : s.calls n = .front id deadline := by
  by_cases hn : n = m
  · subst hn
    exact absurd ((setCall_calls_self n _).symm.trans h) hphase
  · rwa [setCall_calls_of_ne _ hn, hcalls] at h

theorem Step.front_cases (hstep : Step config call s action t)
    (h : t.calls n = .front id deadline) : s.calls n = .front id deadline ∨
      t.state = s.state ∧ (s.calls n).entryId? = some id ∧
        s.state.isFront config id (call n).workload (call n).userId = true := by
  cases hstep with
  | alter halters =>
    refine .inl ?_
    cases halters with
    | take m phase hcall | giveBack m phase hcall | unqueue m id' phase hcall =>
      refine front_of_setCall h ?_ rfl
      rintro rfl
      simp at hcall
    | begin | refuse | endLease | enqueue => exact front_of_setCall h nofun rfl
  | rest | tick => exact .inl h
  | move m phase hrole hcalm =>
    exact .inl (front_of_setCall h (not_front_of_sameRole hrole hcalm) rfl)
  | notify m phase hrole hnotifies =>
    refine .inl (front_of_setCall h (not_front_of_sameRole hrole ?_) notifyNext_calls)
    cases hcall : s.calls m <;> first | rfl | (rw [hcall] at hnotifies; cases hnotifies)
  | atFront m _ _ hcall hfront =>
    by_cases hn : n = m
    · subst hn
      rw [setCall_calls_self] at h
      cases h
      exact .inr ⟨rfl, by rw [hcall]; rfl, hfront⟩
    · rw [setCall_calls_of_ne _ hn] at h
      exact .inl h
  | notFront | miss | wake | cancel => exact .inl (front_of_setCall h nofun rfl)

/-- Only an interactive request that joins ends the emptiness of the interactive queue. -/
theorem Step.interactive_eq_nil (hstep : Step config call s action t)
    (h : s.state.interactive = []) : t.state.interactive = [] ∨
      ∃ m, action = .advance m ∧ s.calls m = .queueing ∧ (call m).workload = .interactive := by
  rcases hstep.unmoved_or_alters with hsame | halters
  · exact .inl (hsame.state ▸ h)
  cases halters with
  | take | begin | refuse | giveBack | endLease => exact .inl h
  | enqueue m _ _ hcall hqueue =>
    by_cases hworkload : .interactive = (call m).workload
    · exact .inr ⟨m, rfl, hcall, hworkload.symm⟩
    · have hkept := (joined_of_queueRequest hqueue).queue .interactive
      rw [if_neg hworkload] at hkept
      exact .inl (hkept.trans h)
  | unqueue m id =>
    refine .inl ?_
    change (s.state.removeQueued id (call m).workload (call m).userId).queue .interactive = []
    rw [removeQueued, queue_setQueue]
    split_ifs with hworkload
    · rw [← hworkload]
      exact congrArg _ h
    · exact h

theorem FrontKept.step (hstep : Step config call s action t)
    (horderly : Orderly config call s action)
    (hqueued : Queued config call s) (h : FrontKept call s) : FrontKept call t := by
  intro n id _ hfront
  rcases hstep.front_cases hfront with hbefore | ⟨hstate, hid, hisFront⟩
  · obtain ⟨⟨entry, hhead, rfl⟩, hempty⟩ := h n id _ hbefore
    refine ⟨⟨entry, hstep.head_kept hqueued _ hhead (by rw [hfront]; exact nofun), rfl⟩, ?_⟩
    intro hbatch
    rcases hstep.interactive_eq_nil (hempty hbatch) with hnil | ⟨m, haction, hcall, hworkload⟩
    · exact hnil
    · have := horderly.joins m haction hcall hworkload _ id _ hbefore
      cases hbatch.symm.trans this
  · obtain ⟨⟨entry, hhead, hentry⟩, hempty⟩ := head_of_isFront hisFront
    have howned := (hqueued.owned _ _ (mem_of_head? hhead)).1
    have hnotify : entry.notify = n := hqueued.unique _ _ id (hentry ▸ howned) hid
    rw [hstate]
    exact ⟨⟨entry, hhead, hnotify⟩, hempty⟩

theorem inTurn_of_orderly (horderly : Orderly config call s action) (h : FrontKept call s) :
    InTurn config call s action := by
  rintro n ⟨haction, hexecution, hcall | ⟨id, _, hcall⟩⟩
  · have hwait := horderly.arrives n haction hcall hexecution
    exact ⟨fun entry hentry => hwait entry (.inr ((takeWhile_sublist _).subset hentry)),
      fun _ entry hentry => hwait entry (.inl hentry)⟩
  · obtain ⟨⟨_, hhead, hnotify⟩, hempty⟩ := h n id _ hcall
    obtain ⟨_, hqueue⟩ := head?_eq_some_iff.mp hhead
    rw [hqueue, takeWhile_cons_of_neg (by simpa using hnotify)]
    refine ⟨nofun, ?_⟩
    rintro (hbatch | hentered)
    · rw [hempty hbatch]
      exact nofun
    · cases hcall.symm.trans hentered

/-- At every step of an orderly run the permit goes to whoever is next. -/
theorem permit_granted_in_turn (config : LocalSchedulerConfig) (call : ℕ → AcquireCall)
    (actions : List SchedulerAction) (action : SchedulerAction)
    (horderly : Meets (step config call) (Orderly config call) {} (actions ++ [action])) :
    InTurn config call (runs (step config call) {} actions) action := by
  obtain ⟨hbefore, haction, -⟩ := (meets_append _).mp horderly
  have hruns := runs_invariant_of_meets (I := fun s => Sound _ call s ∧ FrontKept call s)
    (fun s _ horderly ⟨hsound, hfront⟩ => ⟨hsound.step horderly.fresh,
      hfront.step (step_step _) horderly hsound.queued⟩) hbefore ⟨sound_new, nofun⟩
  exact inTurn_of_orderly haction hruns.2

/-- Call 2 is a batch request. -/
def mixed (n : ℕ) : AcquireCall :=
  { crowd n with workload := if n = 2 then .batch else .interactive }

/-- Calls of both classes wait while call 0 has the permit; it gives the permit back, and call 1
finds itself at the front. -/
def contested : List SchedulerAction :=
  comings 0 ++ arrive 1 ++ arrive 2 ++ arrive 3 ++ [.dropLease 0, .advance 0, .advance 1]

theorem waiting_call_in_turn :
    let s := runs (step {} mixed) {} contested
    s.state.interactive.map (·.notify) = [1, 3] ∧ s.state.batch.map (·.notify) = [2] ∧
      s.Grants (.advance 1) 1 ∧ InTurn {} mixed s (.advance 1) := by
  refine ⟨by decide, by decide, ⟨rfl, by decide, .inr ⟨_, _, rfl⟩⟩, ?_⟩
  refine permit_granted_in_turn {} mixed contested (.advance 1) ?_
  -- no batch call gets to the front, and the only call that arrives at a free permit is the first
  have horderly : ∀ (s : SchedulerSystem) (action : SchedulerAction),
      s.state.nextId.val < 2 ^ 64 - 1 → (∀ id deadline, s.calls 2 ≠ .front id deadline) →
      (s.execution = 0 ∨ s.state.interactive = [] ∧ s.state.batch = [] ∨
        action = .advance 1 ∧ s.calls 1 ≠ .entered) → Orderly {} mixed s action := by
    intro s action hid hfront hfree
    refine ⟨fun _ _ _ => hid, fun n haction hentered hexecution entry hentry => ?_,
      fun _ _ _ _ n id deadline hn => ?_⟩
    · rcases hfree with hnone | ⟨hinteractive, hbatch⟩ | ⟨rfl, hcall⟩
      · exact absurd hnone hexecution
      · cases hworkload : (mixed n).workload <;> simp_all [SchedulerState.queue]
      · cases haction
        exact absurd hentered hcall
    · by_cases htwo : n = 2
      · exact absurd (htwo ▸ hn) (hfront id deadline)
      · simp [mixed, htwo]
  repeat'
    first
    | exact trivial
    | refine ⟨horderly _ _ (by decide) (by rintro _ _ ⟨⟩) (.inl rfl), ?_⟩
    | refine ⟨horderly _ _ (by decide) (by rintro _ _ ⟨⟩) (.inr (.inl ⟨rfl, rfl⟩)), ?_⟩
    | refine ⟨horderly _ _ (by decide) (by rintro _ _ ⟨⟩)
        (.inr (.inr ⟨rfl, by rintro ⟨⟩⟩)), ?_⟩

/-- Call 0 gives the permit back while call 1 waits for it, and call 2 arrives. -/
def handover : List SchedulerAction :=
  comings 0 ++ arrive 1 ++ [.dropLease 0, .advance 0, .start 2]

/-- A batch request that arrives takes the permit past an interactive request that waits. -/
theorem arriving_batch_overtakes :
    ¬InTurn {} mixed (runs (step {} mixed) {} handover) (.advance 2) := by
  intro h
  obtain ⟨-, hinteractive⟩ := h 2 ⟨rfl, by decide, .inl rfl⟩
  exact hinteractive (.inl rfl) ⟨.ofNat _ 1, 0, 1⟩ (by decide) (by unfold MayRun; decide)

end SchedulerSystem

end RouteSmith.Model
