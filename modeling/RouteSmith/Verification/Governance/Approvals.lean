import RouteSmith.Verification.Governance.AdminSteps

/-! # Effects of approved changes

Every effect is preceded by a change request with its action and payload and by approvals of two
administrators. The target of the request is that of the effect where those who apply requests see
to it, and a change request has one effect at most where calls that use it do not overlap.
-/

namespace RouteSmith.Model

open Control Store GovernanceDocument List Option AdminEvent

/-! ## Approvals come first -/

/-- A change request for an operation, and for its target where `targeted` holds, with the approvals
of two administrators. -/
def Authorized (env : GovernanceEnv) (targeted : Prop) (before : List AdminEvent) (c : String)
    (operation : GatedOperation) : Prop :=
  (∃ created, AdminEvent.created c created ∈ before ∧ created.action = operation.action ∧
    (targeted → created.target = operation.target) ∧
    env.writer.write created.payload = env.writer.write operation.payload) ∧
  ∃ a b, a ≠ b ∧ AdminEvent.approved c a ∈ before ∧ AdminEvent.approved c b ∈ before

/-- What the history says of a request. -/
structure RequestRecorded (env : GovernanceEnv) (history : List AdminEvent) (c : String)
    (request : ChangeRequest) : Prop where
  id : request.id = c
  created : AdminEvent.created c request.operation ∈ history
  digest : request.payloadSha256 = payloadSha256 env request.payload
  distinct : (request.approvals.map (·.actorId)).Nodup
  approvals : ∀ a ∈ request.approvals, AdminEvent.approved c a.actorId ∈ history

/-- The operation that a call is about to do, and the change request that it goes by. -/
def CallPhase.pending : CallPhase → Option (String × GatedOperation)
  | storePolicy c operation _ => some (c, operation)
  | effect operation c => some (c, operation)
  | _ => none

/-- A request that is applied is for the target that it is applied to. -/
def OnTarget (env : GovernanceEnv) (s : AdminSystem) : AdminAction → Prop
  | .start _ _ => True
  | .advance n answer =>
    (∀ c actorId request, s.calls n = .apply c actorId →
      s.doc.changeRequests.lookup c = some request → request.action = "budget.hard_limit" →
      request.target = "enterprise-budget") ∧
    ∀ c actorId request policy, s.calls n = .readPolicy c actorId →
      s.doc.readApprovedPolicy env c actorId answer.now = .ok (request, policy) →
      request.target = policy.key

structure Recorded (env : GovernanceEnv) (targeted : Prop) (s : AdminSystem) : Prop where
  requests : ∀ c request, s.doc.changeRequests.lookup c = some request →
    RequestRecorded env s.history c request
  pending : ∀ n c operation, (s.calls n).pending = some (c, operation) →
    Authorized env targeted s.history c operation
  effects : ∀ after c operation before,
    s.history = after ++ AdminEvent.effect c operation :: before →
    Authorized env targeted before c operation

section

variable {env : GovernanceEnv} {targeted : Prop} {s s' : AdminSystem} {action : AdminAction}
  {history events : List AdminEvent} {c : String} {operation : GatedOperation}
  {request : ChangeRequest}

theorem Authorized.append (h : Authorized env targeted history c operation) :
    Authorized env targeted (events ++ history) c operation := by
  obtain ⟨⟨created, hcreated, hsame⟩, a, b, hne, ha, hb⟩ := h
  exact ⟨⟨created, mem_append_right _ hcreated, hsame⟩, a, b, hne,
    mem_append_right _ ha, mem_append_right _ hb⟩

theorem RequestRecorded.append (h : RequestRecorded env history c request) :
    RequestRecorded env (events ++ history) c request where
  id := h.id
  created := mem_append_right _ h.created
  digest := h.digest
  distinct := h.distinct
  approvals a ha := mem_append_right _ (h.approvals a ha)

theorem RequestRecorded.exists_approvers (h : RequestRecorded env history c request)
    (happroved : isApproved request = true) :
    ∃ a b, a ≠ b ∧ approved c a ∈ history ∧ approved c b ∈ history := by
  simp only [isApproved] at happroved
  have hdistinct := h.distinct
  have happrovals := h.approvals
  match hlist : request.approvals with
  | [] | [_] => simp [hlist] at happroved
  | first :: second :: rest =>
    rw [hlist] at hdistinct happrovals
    refine ⟨first.actorId, second.actorId, fun heq => ?_, happrovals first (by simp),
      happrovals _ (by simp)⟩
    simp [heq] at hdistinct

theorem RequestRecorded.authorized (h : RequestRecorded env history c request)
    (happroved : isApproved request = true) (haction : request.action = operation.action)
    (htarget : targeted → request.target = operation.target)
    (hpayload : request.payload = operation.payload) :
    Authorized env targeted history c operation :=
  ⟨⟨request.operation, h.created, haction, htarget, congrArg _ hpayload⟩,
    h.exists_approvers happroved⟩

/-- An approved request authorizes an operation that it matches, as different texts have different
digests. -/
theorem RequestRecorded.authorized_of_matches (hsha : Function.Injective env.sha256)
    (h : RequestRecorded env history c request) (happroved : isApproved request = true)
    (haction : request.action = operation.action) (htarget : request.target = operation.target)
    (hpayload : request.payloadSha256 = payloadSha256 env operation.payload) :
    Authorized env targeted history c operation := by
  rw [h.digest] at hpayload
  exact ⟨⟨request.operation, h.created, haction, fun _ => htarget, hsha hpayload⟩,
    h.exists_approvers happroved⟩

theorem RequestRecorded.markApplied (h : RequestRecorded env history c request)
    (now : Numeric.U64) : RequestRecorded env history c (request.markApplied now) :=
  ⟨h.id, h.created, h.digest, h.distinct, h.approvals⟩

theorem RequestRecorded.addApproval (h : RequestRecorded env history c request)
    (approval : ChangeApproval)
    (hnew : ∀ a ∈ request.approvals, a.actorId ≠ approval.actorId) :
    RequestRecorded env (.approved c approval.actorId :: history) c
      (request.addApproval approval) where
  id := h.id
  created := mem_cons_of_mem _ h.created
  digest := h.digest
  distinct := by
    simp only [ChangeRequest.addApproval, map_append]
    exact h.distinct.append (nodup_singleton _) (by simpa using hnew)
  approvals a ha := by
    simp only [ChangeRequest.addApproval, mem_append, mem_singleton] at ha
    rcases ha with ha | rfl
    · exact mem_cons_of_mem _ (h.approvals a ha)
    · exact mem_cons_self

variable {doc : GovernanceDocument} {phase : CallPhase}

theorem forall_setRequest {P : String → ChangeRequest → Prop} (hrequest : P request.id request)
    (h : ∀ c other, doc.changeRequests.lookup c = some other → P c other) :
    ∀ c other, (doc.setRequest request).changeRequests.lookup c = some other → P c other := by
  intro c _ hlookup
  by_cases hc : c = request.id
  · subst hc
    rw [setRequest, AList.lookup_insert] at hlookup
    cases hlookup
    exact hrequest
  · rw [setRequest, AList.lookup_insert_ne hc] at hlookup
    exact h c _ hlookup

/-- One section: what it writes to the document and to the history, and where it leaves its
call. -/
theorem Recorded.update (h : Recorded env targeted s) (n drawn : ℕ) (events : List AdminEvent)
    (hdoc : ∀ c request, doc.changeRequests.lookup c = some request →
      RequestRecorded env (events ++ s.history) c request)
    (hphase : ∀ c operation, phase.pending = some (c, operation) →
      Authorized env targeted (events ++ s.history) c operation)
    (hevents : ∀ after c operation before, events = after ++ effect c operation :: before →
      Authorized env targeted (before ++ s.history) c operation) :
    Recorded env targeted (({ s with drawn, doc }.record events).setCall n phase) where
  requests := hdoc
  pending m c _ hm := by
    by_cases hmn : m = n
    · subst hmn
      rw [setCall_calls_self] at hm
      exact hphase c _ hm
    · rw [setCall_calls_of_ne _ hmn] at hm
      exact (h.pending m c _ hm).append
  effects _ c operation before hsplit := by
    rcases append_eq_append_iff.mp hsplit with ⟨_, -, hrest⟩ | ⟨rest, hleft, hright⟩
    · exact h.effects _ c _ _ hrest
    · cases rest with
      | nil => exact h.effects [] c operation before (by simpa using hright.symm)
      | cons event rest =>
        cases hright
        exact hevents _ c _ rest hleft

theorem forall_effect_singleton (h : Authorized env targeted history c operation) :
    ∀ after c' operation' before, [effect c operation] = after ++ effect c' operation' :: before →
        Authorized env targeted (before ++ history) c' operation' := by
  intro after c' operation' before hsplit
  obtain ⟨rfl, hevent, rfl⟩ : after = [] ∧ effect c operation = .effect c' operation' ∧
      before = [] := by
    cases after with
    | nil => simpa using hsplit
    | cons => simp at hsplit
  cases hevent
  exact h

theorem Recorded.setCall (h : Recorded env targeted s) (n : ℕ)
    (hphase : ∀ c operation, phase.pending = some (c, operation) →
      Authorized env targeted s.history c operation) : Recorded env targeted (s.setCall n phase) :=
  h.update n _ [] h.requests hphase (by simp)

theorem recorded_step (hsha : Function.Injective env.sha256) (h : Recorded env targeted s)
    (honTarget : targeted → OnTarget env s action) (hstep : AdminStep env s action s') :
    Recorded env targeted s' := by
  cases hstep with
  | stay => exact h
  | started call =>
    refine h.setCall _ fun c operation hpending => ?_
    cases call <;> cases hpending
  | failed error drawn =>
    exact h.update _ _ [] h.requests nofun (by simp)
  | @created _ _ actorId _ _ _ request hrequest =>
    refine h.update _ _ _ (forall_setRequest ?_ fun c other hother =>
      (h.requests c _ hother).append)
      nofun fun _ c operation _ hsplit => ?_
    · subst hrequest
      exact ⟨rfl, by simp, rfl, by simp [newRequest], by simp [newRequest]⟩
    · have hmem : effect c operation ∈
          [approved request.id actorId, .created request.id request.operation] := by
        rw [hsplit]
        simp
      simp at hmem
  | @approved _ answer c actorId actorName _ request hlookup _ hnew =>
    have hid := (h.requests _ _ hlookup).id
    refine h.update _ _ _ (forall_setRequest ?_ fun c other hother =>
      (h.requests c _ hother).append)
      nofun fun _ c operation _ hsplit => ?_
    · subst hid
      exact (h.requests _ _ hlookup).addApproval ⟨actorId, actorName, answer.now⟩ hnew
    · have hmem : effect c operation ∈ [approved request.id actorId] := by
        rw [hsplit]
        simp
      simp at hmem
  | looked => exact h.setCall _ nofun
  | @chosen _ _ c _ _ hcall hlookup happroved haction =>
    refine h.setCall _ fun c _ hpending => ?_
    cases hpending
    exact (h.requests _ _ hlookup).authorized happroved haction
      (fun ht => (honTarget ht).1 c _ _ hcall hlookup haction) rfl
  | @read _ _ c _ _ _ hcall hread =>
    obtain ⟨hlookup, happroved, haction⟩ := readApprovedPolicy_eq_ok hread
    refine h.setCall _ fun c _ hpending => ?_
    cases hpending
    exact (h.requests _ _ hlookup).authorized happroved haction
      (fun ht => (honTarget ht).2 c _ _ _ hcall hread) rfl
  | @stored n _ c _ _ _ _ hcall hlookup =>
    have hid := (h.requests _ _ hlookup).id
    subst hid
    exact h.update _ _ _ (forall_setRequest ((h.requests _ _ hlookup).markApplied _).append
      fun c other hother => (h.requests c _ hother).append) nofun
      (forall_effect_singleton (h.pending n _ _ (by rw [hcall]; rfl)))
  | verified hcall hlookup happroved haction htarget hpayload =>
    refine h.setCall _ fun c _ hpending => ?_
    cases hpending
    exact (h.requests _ _ hlookup).authorized_of_matches hsha happroved haction htarget hpayload
  | @effected n _ c _ hcall | @interrupted n _ c _ _ hcall =>
    exact h.update _ _ _ (fun c _ hother => (h.requests c _ hother).append) nofun
      (forall_effect_singleton (h.pending n _ _ (by rw [hcall]; rfl)))
  | marked hcall hlookup =>
    have hid := (h.requests _ _ hlookup).id
    subst hid
    exact h.update _ _ [] (forall_setRequest ((h.requests _ _ hlookup).markApplied _)
      h.requests) nofun (by simp)

theorem recorded_initial : Recorded env targeted {} :=
  ⟨fun c _ hlookup => by simp at hlookup, nofun, fun _ c _ _ hsplit => by
    simp at hsplit⟩

end

/-! ## One effect at most -/

def AdminEvent.isEffectOf (c : String) : AdminEvent → Bool
  | effect c' _ => c' = c
  | _ => false

/-- The number of effects that went by a change request. -/
def effectCount (history : List AdminEvent) (c : String) : ℕ := history.countP (·.isEffectOf c)

/-- The change request that the next section of a call looks up for the first time. -/
def CallPhase.checks : CallPhase → Option String
  | apply c _ => some c
  | verify _ c => some c
  | _ => none

/-- The change request that a call has looked up and goes by. -/
def CallPhase.holds : CallPhase → Option String
  | readPolicy c _ => some c
  | storePolicy c _ _ => some c
  | effect _ c => some c
  | mark c => some c
  | _ => none

/-- A call looks a change request up while no other call goes by it, and a call that has changed
something comes to mark the request as applied. -/
def Undisturbed (s : AdminSystem) : AdminAction → Prop
  | .start _ _ => True
  | .advance n answer =>
    (∀ c, (s.calls n).checks = some c → ∀ m, (s.calls m).holds ≠ some c) ∧
      (∀ operation c, s.calls n = .effect operation c →
        ∀ error, answer.effect ≠ .interrupted error) ∧
      ∀ c, s.calls n = .mark c → answer.saved = .ok ()

/-- How a change request is used: by no call, and then for nothing or for one effect that it is
marked for, or by one call, which has its effect right before its mark. -/
inductive Used (s : AdminSystem) (c : String) : Prop
  | unused (hholds : ∀ m, (s.calls m).holds ≠ some c) (hcount : effectCount s.history c = 0)
  | applied (hholds : ∀ m, (s.calls m).holds ≠ some c) (request : ChangeRequest)
      (hlookup : s.doc.changeRequests.lookup c = some request) (hstatus : request.status = .applied)
      (hcount : effectCount s.history c = 1)
  | held (n : ℕ) (hholds : ∀ m, (s.calls m).holds = some c ↔ m = n) (request : ChangeRequest)
      (hlookup : s.doc.changeRequests.lookup c = some request)
      (happroved : isApproved request = true)
      (hcount : s.calls n = .mark c ∧ effectCount s.history c = 1 ∨
        s.calls n ≠ .mark c ∧ effectCount s.history c = 0)

/-- Request identifiers are drawn one after the other, and each request is used once at most. -/
structure UsedOnce (env : GovernanceEnv) (s : AdminSystem) : Prop where
  drawn : ∀ c request, s.doc.changeRequests.lookup c = some request →
    ∃ k < s.drawn, c = "chg_" ++ env.uuid k
  used : ∀ c, Used s c

section

variable {env : GovernanceEnv} {s s' : AdminSystem} {action : AdminAction} {c : String} {n : ℕ}
  {phase : CallPhase} {request : ChangeRequest}

theorem Used.count_le_one (h : Used s c) : effectCount s.history c ≤ 1 := by
  cases h <;> omega

/-- What a change request is used for depends on the calls that go by it, on the request and on its
effects only. -/
theorem Used.frame (h : Used s c)
    (hholds : ∀ m, (s'.calls m).holds = some c ↔ (s.calls m).holds = some c)
    (hmark : ∀ m, s'.calls m = .mark c ↔ s.calls m = .mark c)
    (hlookup : s'.doc.changeRequests.lookup c = s.doc.changeRequests.lookup c)
    (hcount : effectCount s'.history c = effectCount s.history c) : Used s' c := by
  cases h with
  | unused hnone hzero =>
    exact .unused (fun m hm => hnone m ((hholds m).mp hm)) (hcount.trans hzero)
  | applied hnone request hfound hstatus hone =>
    exact .applied (fun m hm => hnone m ((hholds m).mp hm)) _ (hlookup.trans hfound) hstatus
      (hcount.trans hone)
  | held n hone request hfound happroved =>
    refine .held n (fun m => (hholds m).trans (hone m)) _ (hlookup.trans hfound) happroved ?_
    rwa [ne_eq, hmark, hcount]

theorem effectCount_append (events history : List AdminEvent) (c : String) :
    effectCount (events ++ history) c = effectCount events c + effectCount history c :=
  countP_append

theorem effectCount_effect (c : String) (operation : GatedOperation) :
    effectCount [.effect c operation] c = 1 := by simp [effectCount, isEffectOf]

theorem effectCount_effect_of_ne {c c' : String} (h : c' ≠ c) (operation : GatedOperation) :
    effectCount [.effect c operation] c' = 0 := by
  simp [effectCount, isEffectOf, h.symm]

theorem holds_of_mark {phase : CallPhase} (h : phase = .mark c) : phase.holds = some c := by
  rw [h]
  rfl

theorem Used.other (h : Used s c) (drawn : ℕ) (events : List AdminEvent) {doc : GovernanceDocument}
    (hbefore : (s.calls n).holds ≠ some c) (hafter : phase.holds ≠ some c)
    (hlookup : doc.changeRequests.lookup c = s.doc.changeRequests.lookup c)
    (hevents : effectCount events c = 0) :
    Used (({ s with drawn, doc }.record events).setCall n phase) c := by
  refine h.frame (fun m => ?_) (fun m => ?_) hlookup ?_
  · by_cases hm : m = n
    · subst hm
      simp [hbefore, hafter]
    · rw [setCall_calls_of_ne _ hm]
      rfl
  · by_cases hm : m = n
    · subst hm
      rw [setCall_calls_self]
      exact ⟨fun hp => absurd (holds_of_mark hp) hafter,
        fun hp => absurd (holds_of_mark hp) hbefore⟩
    · rw [setCall_calls_of_ne _ hm]
      rfl
  · rw [AdminSystem.setCall, AdminSystem.record, effectCount_append, hevents, zero_add]

theorem Used.holder (h : Used s c) (hholds : (s.calls n).holds = some c) :
    (∀ m, (s.calls m).holds = some c ↔ m = n) ∧
      (∃ request, s.doc.changeRequests.lookup c = some request ∧ isApproved request = true) ∧
      (s.calls n = .mark c ∧ effectCount s.history c = 1 ∨
        s.calls n ≠ .mark c ∧ effectCount s.history c = 0) := by
  cases h with
  | unused hnone | applied hnone => exact absurd hholds (hnone n)
  | held n' hone request hlookup happroved hcount =>
    obtain rfl : n = n' := (hone n).mp hholds
    exact ⟨hone, ⟨request, hlookup, happroved⟩, hcount⟩

theorem holds_setCall_iff {p : Option String} (hone : ∀ m, (s.calls m).holds = p → m = n)
    (hafter : phase.holds = p) (m : ℕ) : ((s.setCall n phase).calls m).holds = p ↔ m = n := by
  by_cases hm : m = n
  · subst hm
    simp [hafter]
  · rw [setCall_calls_of_ne s hm]
    exact ⟨hone m, (absurd · hm)⟩

theorem holds_setCall_ne (hone : ∀ m, (s.calls m).holds = some c → m = n)
    (hafter : phase.holds ≠ some c) (m : ℕ) : ((s.setCall n phase).calls m).holds ≠ some c := by
  by_cases hm : m = n
  · subst hm
    simpa using hafter
  · rw [setCall_calls_of_ne s hm]
    exact fun hp => hm (hone m hp)

theorem Used.take (h : Used s c) (hnone : ∀ m, (s.calls m).holds ≠ some c)
    (hlookup : s.doc.changeRequests.lookup c = some request) (happroved : isApproved request = true)
    (hafter : phase.holds = some c) (hmark : phase ≠ .mark c) : Used (s.setCall n phase) c := by
  have hzero : effectCount s.history c = 0 := by
    cases h with
    | unused _ hcount => exact hcount
    | applied _ _ hlookup' hstatus =>
      cases hlookup.symm.trans hlookup'
      simp [isApproved, hstatus] at happroved
    | held n' hone => exact absurd ((hone n').mpr rfl) (hnone n')
  exact .held n (holds_setCall_iff (fun m hp => absurd hp (hnone m)) hafter) _ hlookup happroved
    (.inr ⟨by simpa using hmark, hzero⟩)

section

variable (h : Used s c) (hbefore : (s.calls n).holds = some c) (hnotMark : s.calls n ≠ .mark c)

include h hbefore hnotMark

theorem Used.keep (hafter : phase.holds = some c) (hmark : phase ≠ .mark c) :
    Used (s.setCall n phase) c := by
  obtain ⟨hone, ⟨_, hlookup, happroved⟩, hcount⟩ := h.holder hbefore
  exact .held n (holds_setCall_iff (fun m => (hone m).mp) hafter) _ hlookup happroved
    (.inr ⟨by simpa using hmark, (hcount.resolve_left fun hm => hnotMark hm.1).2⟩)

theorem Used.release {drawn : ℕ} {policies : NameMap StoredPolicy}
    (hafter : phase.holds ≠ some c) :
    Used ({ s with drawn, doc := { s.doc with projectPolicies := policies } }.setCall
      n phase) c := by
  obtain ⟨hone, -, hcount⟩ := h.holder hbefore
  exact .unused (holds_setCall_ne (fun m => (hone m).mp) hafter)
    (hcount.resolve_left fun hm => hnotMark hm.1).2

theorem Used.effect (operation : GatedOperation) :
    Used ((s.record [.effect c operation]).setCall n (.mark c)) c := by
  obtain ⟨hone, ⟨_, hlookup, happroved⟩, hcount⟩ := h.holder hbefore
  refine .held n (holds_setCall_iff (fun m => (hone m).mp) rfl) _ hlookup happroved
    (.inl ⟨setCall_calls_self .., ?_⟩)
  have hzero := (hcount.resolve_left fun hm => hnotMark hm.1).2
  rw [AdminSystem.setCall, AdminSystem.record, effectCount_append, effectCount_effect, hzero]

end

theorem lookup_setRequest (doc : GovernanceDocument) (request : ChangeRequest) :
    (doc.setRequest request).changeRequests.lookup request.id = some request :=
  AList.lookup_insert _

theorem lookup_setRequest_of_ne {doc : GovernanceDocument} (h : c ≠ request.id) :
    (doc.setRequest request).changeRequests.lookup c = doc.changeRequests.lookup c :=
  AList.lookup_insert_ne h

theorem Used.approve (h : Used s request.id)
    (hlookup : s.doc.changeRequests.lookup request.id = some request)
    (hstatus : request.status ≠ .applied) (hbefore : (s.calls n).holds ≠ some request.id)
    (approval : ChangeApproval) (result : Except AppError Unit) :
    Used (({ s with doc := s.doc.setRequest (request.addApproval approval) }.record
      [.approved request.id approval.actorId]).setCall n (.done result)) request.id := by
  cases h with
  | unused hno hcount =>
    exact .unused (holds_setCall_ne (fun m hp => absurd hp (hno m)) nofun) hcount
  | applied _ _ hother happlied =>
    cases hlookup.symm.trans hother
    exact absurd happlied hstatus
  | held n' hone _ hother happroved hcount =>
    cases hlookup.symm.trans hother
    have hne : n' ≠ n := fun heq => hbefore ((hone n).mpr heq.symm)
    refine .held n' (fun m => ?_) _ (lookup_setRequest _ _) ?_ ?_
    · by_cases hm : m = n
      · subst hm
        rw [setCall_calls_self]
        exact ⟨nofun, fun heq => absurd heq.symm hne⟩
      · rw [setCall_calls_of_ne _ hm]
        exact hone m
    · simp only [isApproved, Bool.and_eq_true, decide_eq_true_eq] at happroved ⊢
      exact ⟨rfl, happroved.2.trans (by simp [ChangeRequest.addApproval])⟩
    · rw [setCall_calls_of_ne _ hne]
      exact hcount

theorem UsedOnce.setCall (h : UsedOnce env s) (c : String) (hc : Used (s.setCall n phase) c)
    (hbefore : (s.calls n).holds.getD c = c) (hafter : phase.holds.getD c = c) :
    UsedOnce env (s.setCall n phase) where
  drawn := h.drawn
  used c' := by
    by_cases hsame : c' = c
    · exact hsame ▸ hc
    · exact (h.used c').other _ [] (fun hp => hsame (by rwa [hp] at hbefore))
        (fun hp => hsame (by rwa [hp] at hafter)) rfl rfl

theorem UsedOnce.markApplied (h : UsedOnce env s) {now : Numeric.U64}
    {policies : NameMap StoredPolicy} (events : List AdminEvent)
    (hlookup : s.doc.changeRequests.lookup request.id = some request)
    (hholds : (s.calls n).holds = some request.id)
    (hcount : effectCount (events ++ s.history) request.id = 1)
    (hother : ∀ c ≠ request.id, effectCount events c = 0) :
    UsedOnce env (({ s with doc := (setRequest { s.doc with projectPolicies := policies }
      (request.markApplied now)) }.record events).setCall n (.done (.ok ()))) := by
  obtain ⟨hone, -⟩ := (h.used _).holder hholds
  refine ⟨forall_setRequest (h.drawn _ _ hlookup) h.drawn, fun c => ?_⟩
  by_cases hc : c = request.id
  · subst hc
    exact .applied (holds_setCall_ne (fun m => (hone m).mp) nofun) _ (lookup_setRequest _ _) rfl
      hcount
  · exact (h.used c).other _ events (fun hp => hc (some.inj (hp.symm.trans hholds))) nofun
      (lookup_setRequest_of_ne hc) (hother c hc)

theorem usedOnce_step (huuid : Function.Injective env.uuid) (hrecorded : Recorded env False s)
    (h : UsedOnce env s) (hundisturbed : Undisturbed s action) (hstep : AdminStep env s action s') :
    UsedOnce env s' := by
  cases hstep with
  | stay => exact h
  | @started n call hcall =>
    refine ⟨h.drawn, fun c => (h.used c).other _ [] ?_ ?_ rfl rfl⟩
    · simp [hcall, CallPhase.holds]
    · cases call <;> simp [AdminCall.phase, CallPhase.holds]
  | @failed n _ error drawn _ hdrawn hmark =>
    refine ⟨fun c request hlookup => ?_, fun c => ?_⟩
    · obtain ⟨k, hk, hid⟩ := h.drawn c _ hlookup
      exact ⟨k, hk.trans_le hdrawn, hid⟩
    · by_cases hholds : (s.calls n).holds = some c
      · refine (h.used c).release hholds (fun hcall => ?_) nofun
        obtain ⟨-, ⟨request, hlookup, happroved⟩, -⟩ := (h.used c).holder hholds
        obtain ⟨error, herror⟩ := hmark c hcall _ hlookup happroved
        rw [hundisturbed.2.2 c hcall] at herror
        cases herror
      · exact (h.used c).other _ [] hholds nofun rfl rfl
  | @created n answer actorId actorName input hcall request hrequest =>
    have hid : request.id = "chg_" ++ env.uuid s.drawn := by rw [hrequest, newRequest]
    have hnone : s.doc.changeRequests.lookup request.id = none := by
      refine eq_none_iff_forall_ne_some.mpr fun other hother => ?_
      obtain ⟨k, hk, hsame⟩ := h.drawn _ _ hother
      rw [hid] at hsame
      have hdrawn : s.drawn = k := huuid (by simpa using hsame)
      omega
    have hholds : ∀ c, (s.calls n).holds ≠ some c := fun c => by simp [hcall, CallPhase.holds]
    refine ⟨forall_setRequest ⟨s.drawn, Nat.lt_succ_self _, hid⟩ fun c _ hother => ?_, fun c => ?_⟩
    · obtain ⟨k, hk, hsame⟩ := h.drawn c _ hother
      exact ⟨k, hk.trans (Nat.lt_succ_self _), hsame⟩
    · by_cases hc : c = request.id
      · subst hc
        cases h.used request.id with
        | unused hno hcount =>
          exact .unused (holds_setCall_ne (fun m hp => absurd hp (hno m)) nofun) hcount
        | applied _ _ hother | held _ _ _ hother => exact absurd (hnone.symm.trans hother) nofun
      · exact (h.used c).other _ _ (hholds c) nofun (lookup_setRequest_of_ne hc) rfl
  | @approved n _ c _ _ hcall request hlookup hstatus =>
    have hid := (hrecorded.requests _ _ hlookup).id
    subst hid
    have hholds : ∀ c, (s.calls n).holds ≠ some c := fun c => by simp [hcall, CallPhase.holds]
    refine ⟨forall_setRequest (h.drawn _ _ hlookup) h.drawn, fun c => ?_⟩
    by_cases hc : c = request.id
    · subst hc
      exact (h.used _).approve hlookup hstatus (hholds _) _ _
    · exact (h.used c).other _ _ (hholds c) nofun (lookup_setRequest_of_ne hc) rfl
  | @looked _ _ c _ _ hcall hlookup happroved | @chosen _ _ c _ _ hcall hlookup happroved
  | @verified _ _ c _ _ hcall hlookup happroved =>
    have hnone := hundisturbed.1 c (by rw [hcall]; rfl)
    exact h.setCall c ((h.used c).take hnone hlookup happroved rfl nofun) (by rw [hcall]; rfl) rfl
  | @read n _ c _ _ _ hcall =>
    have hholds : (s.calls n).holds = some c := by rw [hcall]; rfl
    exact h.setCall c ((h.used c).keep hholds (by rw [hcall]; nofun) rfl nofun)
      (by rw [hholds]; rfl) rfl
  | @stored n _ c operation _ request _ hcall hlookup =>
    have hid := (hrecorded.requests _ _ hlookup).id
    subst hid
    have hholds : (s.calls n).holds = some request.id := by rw [hcall]; rfl
    have hcount := ((h.used _).holder hholds).2.2
    have hzero := (hcount.resolve_left fun hm => absurd hm.1 (by rw [hcall]; nofun)).2
    exact h.markApplied [.effect _ operation] hlookup hholds
      (by rw [effectCount_append, effectCount_effect, hzero])
      fun c hc => effectCount_effect_of_ne hc _
  | @effected n _ c operation hcall =>
    have hholds : (s.calls n).holds = some c := by rw [hcall]; rfl
    refine ⟨h.drawn, fun c' => ?_⟩
    by_cases hc : c' = c
    · subst hc
      exact (h.used _).effect hholds (by rw [hcall]; nofun) _
    · exact (h.used c').other _ _ (fun hp => hc (some.inj (hp.symm.trans hholds)))
        (fun hp => hc (some.inj hp).symm) rfl (effectCount_effect_of_ne hc _)
  | @interrupted _ _ c operation error hcall houtcome =>
    exact absurd houtcome (hundisturbed.2.1 _ c hcall _)
  | @marked n _ c request hcall hlookup =>
    have hid := (hrecorded.requests _ _ hlookup).id
    subst hid
    have hholds : (s.calls n).holds = some request.id := by rw [hcall]; rfl
    have hcount := ((h.used _).holder hholds).2.2
    exact h.markApplied [] hlookup hholds (hcount.resolve_right (·.1 hcall)).2 fun _ _ => rfl

theorem usedOnce_initial : UsedOnce env {} :=
  ⟨fun c _ hlookup => by simp at hlookup, fun c => .unused nofun rfl⟩

/-- In every interleaving each effect comes after a change request with its action and payload and
after the approvals of two administrators. The request is for the target of the effect, too, if
requests are applied to their targets only. A change request has one effect at most if no call looks
it up while another goes by it and every call that had an effect gets to mark it. -/
theorem effects_approved (hsha : Function.Injective env.sha256)
    (huuid : Function.Injective env.uuid) (actions : List AdminAction) :
    let history := (runs (AdminSystem.step env) {} actions).history
    (∀ after c operation before, history = after ++ AdminEvent.effect c operation :: before →
      Authorized env False before c operation) ∧
    (Meets (AdminSystem.step env) (OnTarget env) {} actions →
      ∀ after c operation before, history = after ++ AdminEvent.effect c operation :: before →
        Authorized env True before c operation) ∧
    (Meets (AdminSystem.step env) Undisturbed {} actions → ∀ c, effectCount history c ≤ 1) := by
  refine ⟨?_, fun hmeets => ?_, fun hmeets c => ?_⟩
  · have hrecorded : Recorded env False (runs (.step env) {} actions) :=
      runs_invariant (fun s a h => recorded_step hsha h nofun (adminStep_step env s a))
        recorded_initial
    exact hrecorded.effects
  · have hrecorded : Recorded env True (runs (.step env) {} actions) :=
      runs_invariant_of_meets (fun s a htarget h =>
        recorded_step hsha h (fun _ => htarget) (adminStep_step env s a)) hmeets recorded_initial
    exact hrecorded.effects
  · have hboth := runs_invariant_of_meets (I := fun s => Recorded env False s ∧ UsedOnce env s)
        (fun s a hundisturbed h => ⟨recorded_step hsha h.1 nofun (adminStep_step env s a),
          usedOnce_step huuid h.1 h.2 hundisturbed (adminStep_step env s a)⟩) hmeets
        ⟨recorded_initial, usedOnce_initial⟩
    exact (hboth.2.used c).count_le_one

end

def approvalEnv : GovernanceEnv where
  writer := { float := fun _ => "0.0", numeral := fun _ => Json.numeral_zero }
  sha256 := id
  uuid := fun n => String.ofList (List.replicate n '0')
  readPolicy := fun _ => .error .auth

theorem approvalEnv_uuid_injective : Function.Injective approvalEnv.uuid := fun m n h => by
  simpa [approvalEnv] using congrArg (·.toList.length) h

def sectionAnswer : SectionAnswer := { now := .ofNat _ 0 }

/-- A change of the budget that one administrator asks for and another approves. -/
def approvedBudget (target : String) : List AdminAction :=
  [.start 0 (.create "a" "A" ⟨"budget.hard_limit", target, .null, "new budget"⟩),
    .advance 0 sectionAnswer, .start 1 (.approve "chg_" "b" "B"), .advance 1 sectionAnswer]

/-- What has happened then, the latest first. -/
def approvedHistory (target : String) : List AdminEvent :=
  [.approved "chg_" "b", .approved "chg_" "a",
    .created "chg_" ⟨"budget.hard_limit", target, .null⟩]

def budgetCall (n : ℕ) : AdminAction := .start n (.gated (budgetUpdate .null) "chg_")

theorem approved_budget_once :
    let s := runs (AdminSystem.step approvalEnv) {} (approvedBudget "enterprise-budget" ++
      [budgetCall 2, .advance 2 sectionAnswer, .advance 2 sectionAnswer, .advance 2 sectionAnswer])
    s.history = .effect "chg_" (budgetUpdate .null) :: approvedHistory "enterprise-budget" ∧
      Authorized approvalEnv True (approvedHistory "enterprise-budget") "chg_"
        (budgetUpdate .null) ∧
      ∀ c, effectCount s.history c ≤ 1 := by
  intro s
  have hhistory : s.history =
      .effect "chg_" (budgetUpdate .null) :: approvedHistory "enterprise-budget" := rfl
  obtain ⟨-, htargets, hcount⟩ := effects_approved Function.injective_id approvalEnv_uuid_injective
    (approvedBudget "enterprise-budget" ++
      [budgetCall 2, .advance 2 sectionAnswer, .advance 2 sectionAnswer, .advance 2 sectionAnswer])
  refine ⟨hhistory, htargets ?_ [] _ _ _ hhistory, hcount ?_⟩
  · have hother : ∀ s n, (∀ c actorId, AdminSystem.calls s n ≠ .apply c actorId) →
        (∀ c actorId, s.calls n ≠ .readPolicy c actorId) →
        OnTarget approvalEnv s (.advance n sectionAnswer) :=
      fun s n h h' => ⟨fun c _ _ hc => absurd hc (h c _), fun c _ _ _ hc => absurd hc (h' c _)⟩
    exact ⟨trivial, hother _ _ nofun nofun, trivial, hother _ _ nofun nofun, trivial,
      hother _ _ nofun nofun, hother _ _ nofun nofun, hother _ _ nofun nofun, trivial⟩
  have hquiet : ∀ s n, (∀ c, (AdminSystem.calls s n).checks = some c →
      ∀ m, (s.calls m).holds ≠ some c) → Undisturbed s (.advance n sectionAnswer) :=
    fun s n h => ⟨h, fun _ _ _ _ => nofun, fun _ _ => rfl⟩
  refine ⟨trivial, hquiet _ _ nofun, trivial, hquiet _ _ nofun, trivial, hquiet _ _ ?_,
    hquiet _ _ nofun, hquiet _ _ nofun, trivial⟩
  rintro c - (_ | _ | _ | m)
  all_goals exact nofun

/-- Two calls that look the same approved change up before one of them marks it both change the
budget. A change that was approved for another target changes it, too, when it is applied. -/
theorem budget_changed_past_approval :
    effectCount (runs (AdminSystem.step approvalEnv) {} (approvedBudget "enterprise-budget" ++
      [budgetCall 2, budgetCall 3, .advance 2 sectionAnswer, .advance 3 sectionAnswer,
        .advance 2 sectionAnswer, .advance 3 sectionAnswer])).history "chg_" = 2 ∧
    (runs (AdminSystem.step approvalEnv) {} (approvedBudget "docs-site" ++
        [.start 2 (.apply "chg_" "a"), .advance 2 sectionAnswer,
          .advance 2 sectionAnswer])).history =
      .effect "chg_" (budgetUpdate .null) :: approvedHistory "docs-site" ∧
    ¬Authorized approvalEnv True (approvedHistory "docs-site") "chg_" (budgetUpdate .null) := by
  refine ⟨rfl, rfl, ?_⟩
  rintro ⟨⟨created, hcreated, -, htarget, -⟩, -⟩
  have hother : created = ⟨"budget.hard_limit", "docs-site", .null⟩ := by
    simpa [approvedHistory] using hcreated
  subst hother
  exact absurd (htarget trivial) (by decide)

end RouteSmith.Model
