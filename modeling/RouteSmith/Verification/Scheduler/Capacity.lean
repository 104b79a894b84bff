import Mathlib.Data.Set.Card
import RouteSmith.Verification.Scheduler.Steps

/-! # The limits of the local scheduler -/

namespace RouteSmith.Model

open Control Numeric Store List Function Option AcquirePhase Counters

namespace SchedulerSystem

variable {config : LocalSchedulerConfig} {call : ℕ → AcquireCall} {s t : SchedulerSystem}
  {action : SchedulerAction}

/-! ## The permit -/

/-- Which call has the permit; a user's running counter counts the lease that goes with it. -/
structure Lent (call : ℕ → AcquireCall) (s : SchedulerSystem) (holder : Option ℕ) : Prop where
  execution : s.execution = if holder = none then 1 else 0
  holdsPermit : ∀ n, (s.calls n).holdsPermit = true ↔ holder = some n
  running : ∀ user, s.state.runningByUser.count user =
    if holder.any (fun n => (s.calls n).isLeased && (call n).userId == user) then 1 else 0

variable {holder : Option ℕ} {n : ℕ} {phase : AcquirePhase} {id : U64}

theorem Lent.congr (h : Lent call s holder) (hexecution : t.execution = s.execution)
    (hholds : ∀ n, (t.calls n).holdsPermit = (s.calls n).holdsPermit)
    (hleased : ∀ n, (t.calls n).isLeased = (s.calls n).isLeased)
    (hrunning : ∀ user, t.state.runningByUser.count user = s.state.runningByUser.count user) :
    Lent call t holder where
  execution := hexecution.trans h.execution
  holdsPermit n := by rw [hholds, h.holdsPermit]
  running user := by simp only [hrunning, h.running, hleased]

/-- A call that gets the permit or gives it up decides alone who has it afterwards. -/
theorem Lent.change {holder' : Option ℕ} (h : Lent call s holder)
    (holder_eq : holder = none ∨ holder = some n) (hcalls : t.calls = (s.setCall n phase).calls)
    (holder'_eq : holder' = if phase.holdsPermit = true then some n else none)
    (hexecution : t.execution = if holder' = none then 1 else 0)
    (hrunning : ∀ user, t.state.runningByUser.count user =
      if phase.isLeased = true ∧ (call n).userId = user then 1 else 0)
    (hleased : phase.isLeased = true → phase.holdsPermit = true) : Lent call t holder' where
  execution := hexecution
  holdsPermit i := by
    rw [hcalls]
    by_cases hi : i = n
    · subst hi
      by_cases hphase : phase.holdsPermit = true <;> simp [holder'_eq]
    · rw [setCall_calls_of_ne _ hi, h.holdsPermit]
      have hi' : n ≠ i := symm hi
      rcases holder_eq with rfl | rfl <;>
        by_cases hphase : phase.holdsPermit = true <;> simp [holder'_eq, hi']
  running user := by
    rw [hrunning, hcalls, holder'_eq]
    by_cases hphase : phase.holdsPermit = true
    · simp [hphase]
    · have : phase.isLeased = false := by
        by_contra hne
        exact hphase (hleased (by simpa using hne))
      simp [hphase, this]

theorem Lent.holder_eq (h : Lent call s holder) (hcall : s.calls n = phase)
    (hphase : phase.holdsPermit = true) : holder = some n :=
  (h.holdsPermit n).mp (by rw [hcall, hphase])

/-- Before its call counts it, the holder of the permit is in no counter. -/
theorem Lent.running_eq_zero (h : Lent call s holder)
    (hholder : holder = none ∨ holder = some n ∧ (s.calls n).isLeased = false) (user : String) :
    s.state.runningByUser.count user = 0 := by
  rw [h.running]
  rcases hholder with rfl | ⟨rfl, hleased⟩
  · rfl
  · simp [hleased]

theorem Lent.step (hstep : Step config call s action t) (h : Lent call s holder) :
    ∃ holder', Lent call t holder' := by
  rcases hstep.unmoved_or_alters with hsame | halters
  · exact ⟨holder, h.congr hsame.execution hsame.holdsPermit hsame.isLeased
      fun user => by rw [hsame.state]⟩
  cases halters with
  | take n phase hcall hexecution =>
    have hnone : holder = none := by
      by_contra hne
      exact hexecution (by rw [h.execution, if_neg hne])
    have hphase : phase.holdsPermit = true ∧ phase.isLeased = false := by
      rcases hcall with ⟨-, rfl⟩ | ⟨id, _, -, rfl⟩ <;> exact ⟨rfl, rfl⟩
    refine ⟨some n, h.change (.inl hnone) rfl (by simp [hphase]) ?_ (fun user => ?_)
      (by simp [hphase])⟩
    · simp [setCall, h.execution, hnone]
    · rw [if_neg (by simp [hphase])]
      exact h.running_eq_zero (n := n) (.inl hnone) user
  | begin n running hcall hrunning =>
    have hphase : (s.calls n).holdsPermit = true ∧ (s.calls n).isLeased = false := by
      rcases hcall with ⟨hcall, -⟩ | hcall <;> rw [hcall] <;> exact ⟨rfl, rfl⟩
    have hholder : holder = some n := (h.holdsPermit n).mp hphase.1
    refine ⟨some n, h.change (.inr hholder) rfl rfl ?_ (fun user => ?_) fun _ => rfl⟩
    · simp [setCall, h.execution, hholder]
    · have hzero := h.running_eq_zero (.inr ⟨hholder, hphase.2⟩) user
      change running.count user = _
      rw [hrunning, hzero]
      simp [isLeased, eq_comm]
  | refuse _ _ hcall _ hrunning =>
    exact ⟨holder, h.congr rfl (setCall_view _ (by rw [hcall]; rfl))
      (setCall_view _ (by rw [hcall]; rfl)) hrunning⟩
  | giveBack n phase hcall =>
    have hphase : (s.calls n).holdsPermit = true ∧ (s.calls n).isLeased = false ∧
        phase.holdsPermit = false ∧ phase.isLeased = false := by
      rcases hcall with ⟨hcall, rfl⟩ | ⟨hcall, rfl⟩ <;> rw [hcall] <;> exact ⟨rfl, rfl, rfl, rfl⟩
    have hholder : holder = some n := (h.holdsPermit n).mp hphase.1
    refine ⟨none, h.change (.inr hholder) rfl (by simp [hphase]) ?_ (fun user => ?_)
      (by simp [hphase])⟩
    · simp [giveBack, setCall, h.execution, hholder]
    · rw [if_neg (by simp [hphase])]
      exact h.running_eq_zero (.inr ⟨hholder, hphase.2.1⟩) user
  | endLease n _ _ hcall =>
    have hholder : holder = some n := h.holder_eq hcall rfl
    refine ⟨some n, h.change (.inr hholder) rfl rfl ?_ (fun user => ?_) nofun⟩
    · simp [setCall, h.execution, hholder]
    · change (s.state.runningByUser.lower (call n).userId).count user = _
      rw [count_lower, h.running, hholder]
      simp only [any_some, hcall, isLeased]
      by_cases huser : user = (call n).userId
      · simp [huser]
      · simp [Ne.symm huser]
  | enqueue _ _ _ hcall hqueue =>
    have hjoined := SchedulerState.joined_of_queueRequest hqueue
    exact ⟨holder, h.congr rfl (setCall_view _ (by rw [hcall]; rfl))
      (setCall_view _ (by rw [hcall]; rfl))
      fun user => congrArg (·.count user) hjoined.runningByUser⟩
  | unqueue n id phase hcall =>
    have hphase : phase.holdsPermit = (s.calls n).holdsPermit ∧
        phase.isLeased = (s.calls n).isLeased := by
      rcases hcall with ⟨hcall, rfl⟩ | ⟨hcall, rfl⟩ <;> rw [hcall] <;> exact ⟨rfl, rfl⟩
    refine ⟨holder, h.congr rfl (setCall_view _ hphase.1) (setCall_view _ hphase.2) fun user => ?_⟩
    exact congrArg (·.count user) (SchedulerState.setQueue_runningByUser ..)

/-! ## The queues -/

/-- How many places a user has in the queues. -/
def entriesOf (call : ℕ → AcquireCall) (state : SchedulerState) (user : String) : ℕ :=
  (state.interactive ++ state.batch).countP fun entry => (call entry.notify).userId = user

theorem entriesOf_congr (call : ℕ → AcquireCall) (state state' : SchedulerState)
    (workload : WorkloadClass)
    (h : ∀ other, other ≠ workload → state'.queue other = state.queue other) (user : String) :
    entriesOf call state' user +
        (state.queue workload).countP (fun entry => (call entry.notify).userId = user) =
      entriesOf call state user +
        (state'.queue workload).countP fun entry => (call entry.notify).userId = user := by
  cases workload with
  | interactive =>
    have hbatch : state'.batch = state.batch := h .batch nofun
    simp only [entriesOf, countP_append, SchedulerState.queue, hbatch]
    omega
  | batch =>
    have hinteractive : state'.interactive = state.interactive := h .interactive nofun
    simp only [entriesOf, countP_append, SchedulerState.queue, hinteractive]
    omega

/-- Each place in a queue is that of one call, whose number nothing else has, and the counters
count the places. -/
structure Queued (config : LocalSchedulerConfig) (call : ℕ → AcquireCall) (s : SchedulerSystem) :
    Prop where
  owned : ∀ workload, ∀ entry ∈ s.state.queue workload,
    (s.calls entry.notify).entryId? = some entry.id ∧ (call entry.notify).workload = workload
  present : ∀ n id, (s.calls n).entryId? = some id →
    ∃ entry ∈ s.state.queue (call n).workload, entry.notify = n
  nodup : ∀ workload, ((s.state.queue workload).map QueuedRequest.notify).Nodup
  unique : ∀ m n id, (s.calls m).entryId? = some id → (s.calls n).entryId? = some id → m = n
  bounded : ∀ n id, (s.calls n).entryId? = some id → id.val ≤ s.state.nextId.val
  counted : ∀ user, s.state.queuedByUser.count user = entriesOf call s.state user
  perUser : ∀ user, s.state.queuedByUser.count user ≤ config.queuedPerUser
  global : ∀ workload, (s.state.queue workload).length ≤ config.globalQueue workload

theorem Queued.congr (h : Queued config call s)
    (hqueue : ∀ workload, t.state.queue workload = s.state.queue workload)
    (hqueued : t.state.queuedByUser = s.state.queuedByUser)
    (hnext : t.state.nextId = s.state.nextId)
    (hentry : ∀ n, (t.calls n).entryId? = (s.calls n).entryId?) : Queued config call t where
  owned workload entry hmem := by
    rw [hqueue] at hmem
    rw [hentry]
    exact h.owned _ _ hmem
  present n id hid := by
    rw [hentry] at hid
    rw [hqueue]
    exact h.present n id hid
  nodup _ := by
    rw [hqueue]
    exact h.nodup _
  unique m n id hm hn := by
    rw [hentry] at hm hn
    exact h.unique m n id hm hn
  bounded n id hid := by
    rw [hentry] at hid
    rw [hnext]
    exact h.bounded n id hid
  counted user := by
    have hentries : entriesOf call t.state user = entriesOf call s.state user := by
      simp only [entriesOf, show t.state.interactive = s.state.interactive from hqueue .interactive,
        show t.state.batch = s.state.batch from hqueue .batch]
    rw [hqueued, hentries, h.counted]
  perUser user := by
    rw [hqueued]
    exact h.perUser user
  global _ := by
    rw [hqueue]
    exact h.global _

/-- A new place is the last one of its queue, under a number that no call has. -/
theorem Queued.join {state : SchedulerState} (h : Queued config call s)
    (hnone : (s.calls n).entryId? = none) (hroom : s.state.nextId.val < 2 ^ 64 - 1)
    (hjoined : s.state.Joined config (call n) n s.now id state) :
    Queued config call ({ s with state }.setCall n (.queued id)) := by
  have hid : id.val = s.state.nextId.val + 1 := by
    rw [hjoined.id_eq]
    change min (_ + 1) _ = _
    omega
  have hother : ∀ i, i ≠ n → ({ s with state }.setCall n (.queued id)).calls i = s.calls i :=
    fun i => setCall_calls_of_ne _
  have hself : (({ s with state }.setCall n (.queued id)).calls n).entryId? = some id := by
    rw [setCall_calls_self]
    rfl
  have hmem : ∀ workload, ∀ entry ∈ s.state.queue workload, entry.notify ≠ n := by
    rintro workload entry hentry rfl
    rw [(h.owned _ _ hentry).1] at hnone
    cases hnone
  have hcount : ∀ user, entriesOf call state user =
      entriesOf call s.state user + if user = (call n).userId then 1 else 0 := by
    intro user
    have hcongr := entriesOf_congr call s.state _ (call n).workload
      (fun _ hother => by rw [hjoined.queue, if_neg hother]) user
    rw [hjoined.queue, if_pos rfl, countP_append, countP_singleton] at hcongr
    simp only [decide_eq_true_eq, eq_comm (a := (call n).userId)] at hcongr
    omega
  constructor
  case owned =>
    intro workload entry hentry
    change entry ∈ state.queue workload at hentry
    rw [hjoined.queue] at hentry
    split_ifs at hentry with hworkload
    · rcases mem_append.mp hentry with hold | hnew
      · rw [hother _ (hmem _ _ hold), hworkload]
        exact h.owned _ _ hold
      · rw [mem_singleton.mp hnew]
        exact ⟨hself, hworkload.symm⟩
    · rw [hother _ (hmem _ _ hentry)]
      exact h.owned _ _ hentry
  case present =>
    intro i id' hid'
    change ∃ entry ∈ state.queue (call i).workload, _
    rw [hjoined.queue]
    by_cases hi : i = n
    · subst hi
      exact ⟨⟨id, s.now, i⟩, by simp, rfl⟩
    · rw [hother i hi] at hid'
      obtain ⟨entry, hentry, hnotify⟩ := h.present i id' hid'
      refine ⟨entry, ?_, hnotify⟩
      split_ifs with hworkload
      · rw [hworkload] at hentry
        exact mem_append_left _ hentry
      · exact hentry
  case nodup =>
    intro workload
    change ((state.queue workload).map QueuedRequest.notify).Nodup
    rw [hjoined.queue]
    split_ifs
    · rw [map_append, nodup_append]
      refine ⟨h.nodup _, nodup_singleton _, ?_⟩
      intro a ha b hb hab
      obtain ⟨_, hentry, rfl⟩ := mem_map.mp ha
      exact hmem _ _ hentry (hab.trans (mem_singleton.mp hb))
    · exact h.nodup _
  case unique =>
    -- the new number is above all others
    have hnew : ∀ i, i ≠ n →
        (({ s with state }.setCall n (.queued id)).calls i).entryId? ≠ some id := by
      intro i hi heq
      rw [hother i hi] at heq
      have := h.bounded i id heq
      omega
    intro i j id' hi hj
    by_cases hin : i = n <;> by_cases hjn : j = n
    · rw [hin, hjn]
    · subst hin
      rw [hself] at hi
      exact absurd (hi ▸ hj) (hnew j hjn)
    · subst hjn
      rw [hself] at hj
      exact absurd (hj ▸ hi) (hnew i hin)
    · rw [hother i hin] at hi
      rw [hother j hjn] at hj
      exact h.unique i j id' hi hj
  case bounded =>
    intro i id' hid'
    change id'.val ≤ state.nextId.val
    rw [hjoined.nextId]
    by_cases hi : i = n
    · subst hi
      rw [hself, some.injEq] at hid'
      rw [hid']
    · rw [hother i hi] at hid'
      have := h.bounded i id' hid'
      omega
  case counted =>
    intro user
    change state.queuedByUser.count user = entriesOf call state user
    rw [hjoined.queuedByUser, count_raise, h.counted, hcount]
  case perUser =>
    intro user
    change state.queuedByUser.count user ≤ _
    rw [hjoined.queuedByUser, count_raise]
    split_ifs with huser
    · rw [huser]
      exact hjoined.perUser
    · exact h.perUser user
  case global =>
    intro workload
    change (state.queue workload).length ≤ _
    rw [hjoined.queue]
    split_ifs with hworkload
    · rw [hworkload, length_append]
      exact hjoined.global
    · exact h.global _

/-- A call's place is the only one that its number or its notifier finds. -/
theorem Queued.split (h : Queued config call s) (hid : (s.calls n).entryId? = some id) :
    ∃ entry before after, s.state.queue (call n).workload = before ++ entry :: after ∧
      entry.notify = n ∧ (∀ other ∈ before ++ after, other.notify ≠ n) ∧
      (s.state.queue (call n).workload).eraseP (fun item => item.id = id) = before ++ after := by
  obtain ⟨entry, hentry, hnotify⟩ := h.present n id hid
  have hentryId : entry.id = id := by
    have howned := (h.owned _ _ hentry).1
    rw [hnotify, hid, some.injEq] at howned
    exact howned.symm
  obtain ⟨found, before, after, -, hfound, hqueue, herase⟩ :=
    exists_of_eraseP (p := fun item => item.id = id) hentry
      (by simpa using hentryId)
  have hmem : found ∈ s.state.queue (call n).workload := by simp [hqueue]
  have hfoundNotify : found.notify = n := by
    have howned := (h.owned _ _ hmem).1
    rw [of_decide_eq_true hfound] at howned
    exact h.unique _ _ id howned hid
  refine ⟨found, before, after, hqueue, hfoundNotify, ?_, herase⟩
  have hnodup := h.nodup (call n).workload
  rw [hqueue, map_append, map_cons, nodup_middle, nodup_cons,
    ← map_append] at hnodup
  intro other hother heq
  exact hnodup.1 (mem_map.mpr ⟨other, hother, heq.trans hfoundNotify.symm⟩)

theorem Queued.leave (h : Queued config call s) (hid : (s.calls n).entryId? = some id)
    (hphase : phase.entryId? = none) : Queued config call (s.unqueue n (call n) id phase) := by
  obtain ⟨entry, before, after, hqueue, hnotify, hne, herase⟩ := h.split hid
  have hother : ∀ i, i ≠ n → (s.unqueue n (call n) id phase).calls i = s.calls i :=
    fun i => setCall_calls_of_ne _
  have hleft : ∀ i id', ((s.unqueue n (call n) id phase).calls i).entryId? = some id' →
      i ≠ n := by
    rintro i id' hid' rfl
    rw [unqueue, setCall_calls_self, hphase] at hid'
    cases hid'
  have hqueue' : ∀ workload, (s.unqueue n (call n) id phase).state.queue workload =
      if workload = (call n).workload then before ++ after else s.state.queue workload := by
    intro workload
    change (s.state.removeQueued id (call n).workload (call n).userId).queue workload = _
    rw [SchedulerState.removeQueued, SchedulerState.queue_setQueue, herase]
    cases workload <;> rfl
  have hqueued : (s.unqueue n (call n) id phase).state.queuedByUser =
      s.state.queuedByUser.lower (call n).userId :=
    SchedulerState.setQueue_queuedByUser ..
  have hsub : ∀ workload, ((s.unqueue n (call n) id phase).state.queue workload).Sublist
      (s.state.queue workload) := by
    intro workload
    rw [hqueue']
    split_ifs with hworkload
    · rw [hworkload, hqueue]
      exact .append_left (sublist_cons_self _ _) _
    · exact .refl _
  have hmem : ∀ workload, ∀ other ∈ (s.unqueue n (call n) id phase).state.queue workload,
      other.notify ≠ n := by
    intro workload other hmem
    rw [hqueue'] at hmem
    split_ifs at hmem with hworkload
    · exact hne _ hmem
    · rintro rfl
      exact hworkload (h.owned _ _ hmem).2.symm
  have hcount : ∀ user, entriesOf call (s.unqueue n (call n) id phase).state user =
      entriesOf call s.state user - if user = (call n).userId then 1 else 0 := by
    intro user
    have hcongr := entriesOf_congr call s.state _ (call n).workload
      (fun other hother => by rw [hqueue', if_neg hother]) user
    rw [hqueue', if_pos rfl, hqueue, countP_append, countP_append, countP_cons,
      hnotify] at hcongr
    simp only [decide_eq_true_eq, eq_comm (a := (call n).userId)] at hcongr
    omega
  constructor
  case owned =>
    intro workload other hmem'
    rw [hother _ (hmem _ _ hmem')]
    exact h.owned _ _ ((hsub _).subset hmem')
  case present =>
    intro i id' hid'
    have hi := hleft i id' hid'
    rw [hother i hi] at hid'
    obtain ⟨other, hmem', hnotify'⟩ := h.present i id' hid'
    refine ⟨other, ?_, hnotify'⟩
    rw [hqueue']
    split_ifs with hworkload
    · rw [hworkload, hqueue] at hmem'
      have hentry : other ≠ entry := by
        rintro rfl
        exact hi (hnotify'.symm.trans hnotify)
      simpa [hentry] using hmem'
    · exact hmem'
  case nodup => exact fun workload => (h.nodup workload).sublist ((hsub workload).map _)
  case unique =>
    intro i j id' hi hj
    rw [hother i (hleft i id' hi)] at hi
    rw [hother j (hleft j id' hj)] at hj
    exact h.unique i j id' hi hj
  case bounded =>
    intro i id' hid'
    rw [hother i (hleft i id' hid')] at hid'
    have hnext : (s.unqueue n (call n) id phase).state.nextId = s.state.nextId :=
      SchedulerState.setQueue_nextId ..
    rw [hnext]
    exact h.bounded i id' hid'
  case counted =>
    intro user
    rw [hqueued, count_lower, h.counted, hcount]
  case perUser =>
    intro user
    rw [hqueued, count_lower]
    exact (Nat.sub_le _ _).trans (h.perUser user)
  case global => exact fun workload => (hsub workload).length_le.trans (h.global workload)

/-- The number that a request is about to be given has not been given before. -/
def FreshId (s : SchedulerSystem) (action : SchedulerAction) : Prop :=
  ∀ n, action = .advance n → s.calls n = .queueing → s.state.nextId.val < 2 ^ 64 - 1

theorem Queued.step (hstep : Step config call s action t) (hfresh : FreshId s action)
    (h : Queued config call s) : Queued config call t := by
  rcases hstep.unmoved_or_alters with hsame | halters
  · exact h.congr (fun _ => by rw [hsame.state]) (by rw [hsame.state]) (by rw [hsame.state])
      hsame.entryId?
  cases halters with
  | take n phase hcall =>
    refine h.congr (fun _ => rfl) rfl rfl (setCall_view _ ?_)
    rcases hcall with ⟨hcall, rfl⟩ | ⟨_, _, hcall, rfl⟩ <;> simp only [hcall] <;> rfl
  | begin _ _ hcall =>
    refine h.congr (fun _ => by cases ‹WorkloadClass› <;> rfl) rfl rfl (setCall_view _ ?_)
    rcases hcall with ⟨hcall, -⟩ | hcall <;> simp only [hcall] <;> rfl
  | refuse _ _ hcall | endLease _ _ _ hcall =>
    refine h.congr (fun _ => by cases ‹WorkloadClass› <;> rfl) rfl rfl (setCall_view _ ?_)
    simp only [hcall]
    rfl
  | giveBack n phase hcall =>
    refine h.congr (fun _ => rfl) rfl rfl (setCall_view _ ?_)
    rcases hcall with ⟨hcall, rfl⟩ | ⟨hcall, rfl⟩ <;> simp only [hcall] <;> rfl
  | enqueue n _ _ hcall hqueue =>
    exact h.join (by rw [hcall]; rfl) (hfresh n rfl hcall)
      (SchedulerState.joined_of_queueRequest hqueue)
  | unqueue _ _ _ hcall =>
    rcases hcall with ⟨hcall, rfl⟩ | ⟨hcall, rfl⟩ <;> exact h.leave (by rw [hcall]; rfl) rfl

/-! ## The limits -/

/-- A call comes to the front, and a lease is given, only if users may execute at all. -/
def Passable (config : LocalSchedulerConfig) (s : SchedulerSystem) : Prop :=
  ∀ n, (s.calls n).passedFront = true → 0 < config.executingPerUser

theorem Passable.setCall (h : Passable config s) (hcalls : t.calls = s.calls)
    (hphase : phase.passedFront = true → 0 < config.executingPerUser) :
    Passable config (t.setCall n phase) := by
  intro i
  by_cases hi : i = n
  · rwa [hi, setCall_calls_self]
  · rw [setCall_calls_of_ne _ hi, hcalls]
    exact h i

theorem Passable.step (hstep : Step config call s action t) (h : Passable config s) :
    Passable config t := by
  cases hstep with
  | alter halters =>
    cases halters with
    | take n phase hcall =>
      refine h.setCall rfl fun hphase => ?_
      rcases hcall with ⟨-, rfl⟩ | ⟨_, _, hcall, rfl⟩
      · cases hphase
      · exact h n (by rw [hcall]; rfl)
    | begin n _ hcall =>
      refine h.setCall rfl fun _ => ?_
      rcases hcall with ⟨-, hlimit⟩ | hcall
      · exact Nat.zero_lt_of_lt hlimit
      · exact h n (by rw [hcall]; rfl)
    | refuse | endLease | enqueue => exact h.setCall rfl nofun
    | giveBack n phase hcall =>
      rcases hcall with ⟨-, rfl⟩ | ⟨-, rfl⟩ <;> exact h.setCall rfl nofun
    | unqueue n _ _ hcall =>
      rcases hcall with ⟨hcall, rfl⟩ | ⟨-, rfl⟩
      · exact h.setCall rfl fun _ => h n (by rw [hcall]; rfl)
      · exact h.setCall rfl nofun
  | rest | tick => exact h
  | move n phase hrole => exact h.setCall rfl fun hphase => h n (hrole.passedFront hphase)
  | notify n phase hrole =>
    exact h.setCall notifyNext_calls fun hphase => h n (hrole.passedFront hphase)
  | atFront _ _ _ _ hfront =>
    exact h.setCall rfl fun _ => Nat.zero_lt_of_lt (SchedulerState.count_lt_of_isFront hfront)
  | notFront | miss | wake | cancel => exact h.setCall rfl nofun

/-- The limits of the scheduler are kept, and its counters count what there is. -/
structure WithinLimits (config : LocalSchedulerConfig) (call : ℕ → AcquireCall)
    (s : SchedulerSystem) : Prop where
  oneLease : ∀ m n, (s.calls m).hasLease = true → (s.calls n).hasLease = true → m = n
  running_le : ∀ user, s.state.runningByUser.count user ≤ config.executingPerUser
  queue_le : ∀ workload, (s.state.queue workload).length ≤ config.globalQueue workload
  queued_eq : ∀ user, s.state.queuedByUser.count user = entriesOf call s.state user
  queued_le : ∀ user, s.state.queuedByUser.count user ≤ config.queuedPerUser
  running_eq : (∀ n, (s.calls n).isResting = true) → ∀ user,
    s.state.runningByUser.count user =
      {n | (s.calls n).hasLease = true ∧ (call n).userId = user}.ncard

theorem Lent.running_le (h : Lent call s holder) (hpass : Passable config s) (user : String) :
    s.state.runningByUser.count user ≤ config.executingPerUser := by
  rw [h.running]
  split_ifs with hany
  · cases holder with
    | none => cases hany
    | some n =>
      refine hpass n ?_
      cases hcall : s.calls n <;> first | rfl | simp [hcall, isLeased] at hany
  · exact Nat.zero_le _

/-- Between operations the leases are the ones that the counters count. -/
theorem Lent.running_eq (h : Lent call s holder) (hrest : ∀ n, (s.calls n).isResting = true)
    (user : String) : s.state.runningByUser.count user =
      {n | (s.calls n).hasLease = true ∧ (call n).userId = user}.ncard := by
  have hset : {n | (s.calls n).hasLease = true ∧ (call n).userId = user} =
      {n | holder = some n ∧ (s.calls n).isLeased = true ∧ (call n).userId = user} := by
    ext n
    rw [Set.mem_ofPred_eq, Set.mem_ofPred_eq, ← h.holdsPermit,
      ← hasLease_eq_isLeased (hrest n)]
    exact ⟨fun hn => ⟨holdsPermit_of_hasLease hn.1, hn⟩, .right⟩
  rw [hset, h.running]
  cases holder with
  | none => simp
  | some n =>
    by_cases hn : (s.calls n).isLeased = true ∧ (call n).userId = user
    · have : {m | some n = some m ∧ (s.calls m).isLeased = true ∧
          (call m).userId = user} = {n} := by
        ext m
        simp only [some.injEq, Set.mem_ofPred_eq]
        exact ⟨(·.1.symm), fun hm => by subst hm; exact ⟨rfl, hn⟩⟩
      rw [this]
      simp [hn]
    · have : {m | some n = some m ∧ (s.calls m).isLeased = true ∧ (call m).userId = user} = ∅ := by
        ext m
        simp only [some.injEq, Set.mem_empty_iff_false, iff_false]
        rintro ⟨rfl, hm⟩
        exact hn hm
      rw [this]
      simpa using hn

/-- The invariant of a run. -/
structure Sound (config : LocalSchedulerConfig) (call : ℕ → AcquireCall) (s : SchedulerSystem) :
    Prop where
  lent : ∃ holder, Lent call s holder
  queued : Queued config call s
  passable : Passable config s

theorem sound_new : Sound config call {} where
  lent := ⟨none, rfl, fun n => by simp [holdsPermit], fun user => by simp⟩
  queued :=
    { owned := fun workload _ h => by cases workload <;> cases h
      present := nofun
      nodup := fun workload => by cases workload <;> exact nodup_nil
      unique := nofun
      bounded := nofun
      counted := fun _ => by simp [entriesOf]
      perUser := fun _ => by simp
      global := fun workload => by cases workload <;> exact Nat.zero_le _ }
  passable := nofun

theorem Sound.step (hfresh : FreshId s action) (h : Sound config call s) :
    Sound config call (s.step config call action) where
  lent := h.lent.elim fun _ hlent => hlent.step (step_step _)
  queued := h.queued.step (step_step _) hfresh
  passable := h.passable.step (step_step _)

theorem Sound.withinLimits (h : Sound config call s) : WithinLimits config call s := by
  obtain ⟨holder, hlent⟩ := h.lent
  exact
    { oneLease := fun m n hm hn => by
        have hm' := (hlent.holdsPermit m).mp (holdsPermit_of_hasLease hm)
        have hn' := (hlent.holdsPermit n).mp (holdsPermit_of_hasLease hn)
        rw [hm', some.injEq] at hn'
        exact hn'
      running_le := hlent.running_le h.passable
      queue_le := h.queued.global
      queued_eq := h.queued.counted
      queued_le := h.queued.perUser
      running_eq := hlent.running_eq }

/-- As long as the numbers of the requests last, every run of the scheduler keeps its limits, with
counters that count the leases and the places in the queues. -/
theorem scheduler_within_limits (config : LocalSchedulerConfig) (call : ℕ → AcquireCall)
    (actions : List SchedulerAction) (hfresh : Meets (step config call) FreshId {} actions) :
    WithinLimits config call (runs (step config call) {} actions) :=
  (runs_invariant_of_meets (fun _ _ => .step) hfresh sound_new).withinLimits

/-! ## When the numbers run out -/

/-- A call up to its first look at the queue. -/
def arrive (n : ℕ) : List SchedulerAction := .start n :: List.replicate 4 (.advance n)

/-- A call at the front up to the end of its wait. -/
def giveUp (n : ℕ) : List SchedulerAction :=
  [.advance n, .advance n, .tick (fromSecs 60), .advance n, .advance n]

/-- The state with one more interactive request. -/
def joinedBy (s : SchedulerSystem) (n : ℕ) (userId : String) : SchedulerState :=
  { s.state with
    nextId := s.state.nextId + .ofNat _ 1
    queuedByUser := s.state.queuedByUser.raise userId
    interactive := s.state.interactive ++ [⟨s.state.nextId + .ofNat _ 1, s.now, n⟩] }

@[simp] theorem joinedBy_runningByUser (n : ℕ) (userId : String) :
    (s.joinedBy n userId).runningByUser = s.state.runningByUser := rfl

@[simp] theorem joinedBy_batch (n : ℕ) (userId : String) :
    (s.joinedBy n userId).batch = s.state.batch := rfl

@[simp] theorem joinedBy_nextId (n : ℕ) (userId : String) :
    (s.joinedBy n userId).nextId = s.state.nextId + .ofNat _ 1 := rfl

@[simp] theorem joinedBy_interactive (n : ℕ) (userId : String) :
    (s.joinedBy n userId).interactive =
      s.state.interactive ++ [⟨s.state.nextId + .ofNat _ 1, s.now, n⟩] := rfl

@[simp] theorem joinedBy_queuedByUser (n : ℕ) (userId : String) :
    (s.joinedBy n userId).queuedByUser = s.state.queuedByUser.raise userId := rfl

theorem removeQueued_interactive (state : SchedulerState) (id : U64) (userId : String) :
    (state.removeQueued id .interactive userId).interactive =
      state.interactive.eraseP fun item => item.id = id := rfl

theorem removeQueued_batch (state : SchedulerState) (id : U64) (userId : String) :
    (state.removeQueued id .interactive userId).batch = state.batch := rfl

/-- What has become of the calls and the state after a part of a run that belongs to one call. -/
structure Became (s : SchedulerSystem) (n : ℕ) (state : SchedulerState) (phase : AcquirePhase)
    (t : SchedulerSystem) : Prop where
  execution : t.execution = s.execution
  state : t.state = state
  calls : t.calls = Function.update s.calls n phase

theorem became_arrive (call : ℕ → AcquireCall) (hcall : s.calls n = .idle)
    (hexecution : s.execution = 0) (hmode : (call n).mode = .localStrict)
    (hworkload : (call n).workload = .interactive)
    (huser : s.state.queuedByUser.count (call n).userId < 2)
    (hroom : s.state.interactive.length < 16) : Became s n (joinedBy s n (call n).userId)
      (.polling (s.state.nextId + .ofNat _ 1) (s.now + fromSecs 60))
      (runs (step {} call) s (arrive n)) ∧
    (runs (step {} call) s (arrive n)).now = s.now := by
  have hqueue : s.state.queueRequest {} (call n) n s.now =
      .ok (s.state.nextId + .ofNat _ 1, joinedBy s n (call n).userId) := by
    have hroom' : ¬ ({} : LocalSchedulerConfig).globalQueue .interactive ≤
        (s.state.queue .interactive).length := hroom.not_ge
    rw [SchedulerState.queueRequest, hworkload, if_neg huser.not_ge, if_neg hroom']
    rfl
  refine ⟨⟨?_, ?_, ?_⟩, ?_⟩ <;>
    simp [arrive, runs, step, advance, hcall, setCall, tryAcquire, hexecution, estimate, enqueue,
      AcquireCall.overflows, hmode, hqueue, deadline, notifyNext, joinedBy, SchedulerState.next?]

theorem became_giveUp (call : ℕ → AcquireCall) {deadline : ℕ}
    (hcall : s.calls n = .polling id deadline) (hexecution : s.execution = 0)
    (hdeadline : deadline ≤ s.now + fromSecs 60)
    (hfront : s.state.isFront {} id (call n).workload (call n).userId = true) :
    Became s n (s.state.removeQueued id (call n).workload (call n).userId) .leaving
      (runs (step {} call) s (giveUp n)) := by
  constructor <;>
    simp [giveUp, runs, step, advance, hcall, setCall, hfront, tryAcquire, hexecution, hdeadline,
      unqueue]

/-- Call 0 keeps the permit; the others wait for it in vain. -/
def crowd (n : ℕ) : AcquireCall where
  userId := if n = 0 then "holder" else if n = 2 then "late" else "early"
  mode := .localStrict
  workload := .interactive
  cloudAvailable := false

theorem isFront_of_head {state : SchedulerState}
    (hrunning : state.runningByUser.count (crowd n).userId = 0)
    (hhead : state.interactive.head?.map QueuedRequest.id = some id) :
    state.isFront {} id (crowd n).workload (crowd n).userId = true := by
  obtain ⟨_, hentry, hid⟩ := map_eq_some_iff.mp hhead
  have hlimit : ¬ ({} : LocalSchedulerConfig).executingPerUser ≤
      state.runningByUser.count (crowd n).userId := by
    rw [hrunning]
    decide
  rw [SchedulerState.isFront.eq_def, if_neg hlimit]
  simp [crowd, hentry, hid]

/-- The permit is taken, the queue is empty, and `k` requests have been in it. -/
structure Busy (k : ℕ) (s : SchedulerSystem) : Prop where
  execution : s.execution = 0
  interactive : s.state.interactive = []
  batch : s.state.batch = []
  queued : ∀ user, s.state.queuedByUser.count user = 0
  running : ∀ n, n ≠ 0 → s.state.runningByUser.count (crowd n).userId = 0
  nextId : s.state.nextId.val = k
  idle : ∀ n, n ≠ 0 → n < 3 ∨ 3 + k ≤ n → s.calls n = .idle

theorem Busy.next {k : ℕ} (h : Busy k s) (hk : k < 2 ^ 64 - 1) :
    Busy (k + 1) (runs (step {} crowd) s (arrive (3 + k) ++ giveUp (3 + k))) := by
  have hne : 3 + k ≠ 0 := by omega
  obtain ⟨harrive, hnow⟩ := became_arrive crowd (h.idle (3 + k) hne (.inr le_rfl))
    h.execution rfl rfl (by rw [h.queued]; decide) (by rw [h.interactive]; decide)
  rw [runs_append]
  have hgive := became_giveUp _
    (by rw [harrive.calls, update_self]) (harrive.execution.trans h.execution)
    (by rw [hnow]) (isFront_of_head (by rw [harrive.state]; exact h.running _ hne)
      (by rw [harrive.state, joinedBy, h.interactive]; rfl))
  constructor
  · rw [hgive.execution, harrive.execution, h.execution]
  · simp [hgive.state, harrive.state, SchedulerState.removeQueued, SchedulerState.setQueue,
      SchedulerState.queue, h.interactive, crowd]
  · simp [hgive.state, harrive.state, SchedulerState.removeQueued, SchedulerState.setQueue,
      h.batch, crowd]
  · rw [hgive.state, harrive.state, SchedulerState.removeQueued,
      SchedulerState.setQueue_queuedByUser]
    simp only [joinedBy, count_lower, count_raise, h.queued]
    omega
  · intro n hn
    rw [hgive.state, harrive.state, SchedulerState.removeQueued,
      SchedulerState.setQueue_runningByUser]
    exact h.running n hn
  · rw [hgive.state, harrive.state, SchedulerState.removeQueued, SchedulerState.setQueue_nextId]
    simp only [joinedBy, Saturating.val_add, h.nextId]
    change min (k + 1) (2 ^ 64 - 1) = k + 1
    omega
  · intro n hn hidle
    have hn' : n ≠ 3 + k := by omega
    rw [hgive.calls, harrive.calls, update_of_ne hn', update_of_ne hn']
    exact h.idle n hn (by omega)

/-- Call 0 takes the permit, and then some requests come and go one after the other. -/
def comings (k : ℕ) : List SchedulerAction :=
  .start 0 :: .advance 0 :: .advance 0 ::
    (List.range k).flatMap fun i => arrive (3 + i) ++ giveUp (3 + i)

theorem busy_comings {k : ℕ} (hk : k ≤ 2 ^ 64 - 1) :
    Busy k (runs (step {} crowd) {} (comings k)) := by
  induction k with
  | zero =>
    constructor
    · rfl
    · rfl
    · rfl
    · exact fun _ => rfl
    · intro n hn
      simp only [crowd, if_neg hn]
      split_ifs <;> decide
    · rfl
    · intro n hn _
      simp [comings, runs, step, advance, setCall, tryAcquire, countOrRefuse,
        update_of_ne hn]
  | succ k ih =>
    have hsplit : comings (k + 1) = comings k ++ (arrive (3 + k) ++ giveUp (3 + k)) := by
      simp [comings, range_succ]
    rw [hsplit, runs_append]
    exact (ih (by omega)).next (by omega)

/-- One call has the permit and another waits for it. -/
theorem waiting_call_within_limits :
    WithinLimits {} crowd (runs (step {} crowd) {} (comings 0 ++ arrive 1)) ∧
      (runs (step {} crowd) {} (comings 0 ++ arrive 1)).state.queuedByUser.count "early" = 1 :=
  ⟨scheduler_within_limits {} _ _
    (by repeat' first | exact trivial | refine ⟨fun _ _ _ => by decide, ?_⟩), by decide⟩

/-- After `2 ^ 64 - 2` requests two more get the last number. The one that gives up first takes the
other's place out of the queue: a user without a place is counted, and one with a place is not. -/
theorem queued_counters_wrong_after_last_number :
    ∃ actions, (runs (step {} crowd) {} actions).state.queuedByUser.count "early" = 1 ∧
      entriesOf crowd (runs (step {} crowd) {} actions).state "early" = 0 ∧
      (runs (step {} crowd) {} actions).state.queuedByUser.count "late" = 0 ∧
      entriesOf crowd (runs (step {} crowd) {} actions).state "late" = 1 := by
  have hbusy : Busy (2 ^ 64 - 2) (runs (step {} crowd) {} (comings (2 ^ 64 - 2))) :=
    busy_comings (by norm_num)
  refine ⟨comings (2 ^ 64 - 2) ++ arrive 1 ++ arrive 2 ++ giveUp 2, ?_⟩
  rw [runs_append, runs_append, runs_append]
  generalize runs (step {} crowd) {} (comings (2 ^ 64 - 2)) = s at hbusy
  have hfull : s.state.nextId + .ofNat _ 1 + .ofNat _ 1 = s.state.nextId + .ofNat _ 1 := by
    ext
    simp only [Saturating.val_add, hbusy.nextId]
    rfl
  generalize hlast : s.state.nextId + .ofNat _ 1 = last at hfull
  obtain ⟨hfirst, hnow⟩ := became_arrive crowd (hbusy.idle 1 (by decide)
    (.inl (by decide))) hbusy.execution rfl rfl (by rw [hbusy.queued]; decide)
    (by rw [hbusy.interactive]; decide)
  generalize runs (step {} crowd) s (arrive 1) = s₁ at hfirst hnow
  have hqueue₁ : s₁.state.interactive = [⟨last, s.now, 1⟩] := by
    rw [hfirst.state, joinedBy_interactive, hbusy.interactive, hlast, nil_append]
  have hlast₁ : s₁.state.nextId + .ofNat _ 1 = last := by
    rw [hfirst.state, joinedBy_nextId, hlast, hfull]
  have hqueued₁ : ∀ user, s₁.state.queuedByUser.count user = if user = "early" then 1 else 0 := by
    intro user
    rw [hfirst.state, joinedBy_queuedByUser, count_raise, hbusy.queued, Nat.zero_add]
    rfl
  obtain ⟨hsecond, hnow₁⟩ := became_arrive crowd (n := 2) (by
    rw [hfirst.calls, update_of_ne (by decide)]
    exact hbusy.idle 2 (by decide) (.inl (by decide)))
    (hfirst.execution.trans hbusy.execution) rfl rfl (by rw [hqueued₁]; decide)
    (by rw [hqueue₁]; exact Nat.lt_of_sub_eq_succ rfl)
  generalize runs (step {} crowd) s₁ (arrive 2) = s₂ at hsecond hnow₁
  rw [hlast₁] at hsecond
  have hqueue₂ : s₂.state.interactive =
      [⟨last, s.now, 1⟩, ⟨last, s₁.now, 2⟩] := by
    rw [hsecond.state, joinedBy_interactive, hqueue₁, hlast₁, singleton_append]
  have hcall₂ : s₂.calls 2 = .polling last (s₁.now + fromSecs 60) := by
    rw [hsecond.calls, update_self]
  have hrunning₂ : s₂.state.runningByUser = s.state.runningByUser := by
    rw [hsecond.state, joinedBy_runningByUser, hfirst.state, joinedBy_runningByUser]
  have hhead : s₂.state.interactive.head?.map QueuedRequest.id = some last := by
    rw [hqueue₂, head?_cons, map_some]
  have hgive := became_giveUp crowd hcall₂
    (hsecond.execution.trans (hfirst.execution.trans hbusy.execution)) (by rw [hnow₁])
    (isFront_of_head (n := 2) (by rw [hrunning₂]; exact hbusy.running 2 (by decide)) hhead)
  have hqueued : ∀ user, (runs (step {} crowd) s₂ (giveUp 2)).state.queuedByUser.count user =
      if user = "early" then 1 else 0 := by
    intro user
    rw [hgive.state, SchedulerState.removeQueued, SchedulerState.setQueue_queuedByUser,
      count_lower, hsecond.state, joinedBy_queuedByUser, count_raise, hqueued₁,
      Nat.add_sub_cancel]
  have hentries : ∀ user, entriesOf crowd (runs (step {} crowd) s₂ (giveUp 2)).state user =
      if user = "late" then 1 else 0 := by
    intro user
    have hinteractive : (s₂.state.removeQueued last .interactive (crowd 2).userId).interactive =
        [⟨last, s₁.now, 2⟩] := by
      rw [removeQueued_interactive, hqueue₂]
      exact eraseP_cons_of_pos (decide_eq_true (Eq.refl last))
    have hbatch : (s₂.state.removeQueued last .interactive (crowd 2).userId).batch = [] := by
      rw [removeQueued_batch, hsecond.state, joinedBy_batch, hfirst.state, joinedBy_batch,
        hbusy.batch]
    rw [hgive.state, entriesOf]
    change countP _ ((s₂.state.removeQueued last .interactive (crowd 2).userId).interactive ++
      (s₂.state.removeQueued last .interactive (crowd 2).userId).batch) = _
    rw [hinteractive, hbatch, append_nil, countP_singleton]
    simp only [decide_eq_true_eq, eq_comm (a := (crowd 2).userId)]
    rfl
  rw [hqueued, hqueued, hentries, hentries]
  decide

end SchedulerSystem

end RouteSmith.Model
