import RouteSmith.Model.AdminCalls

/-! # What one section of an administrator's call can do -/

namespace RouteSmith.Model

open Store GovernanceDocument
open AdminSystem hiding storePolicy

/-! ## Sections on the document -/

section

variable {doc : GovernanceDocument} {env : GovernanceEnv} {requestId actorId actorName : String}
  {now : Numeric.U64} {saved : Except AppError Unit} {request : ChangeRequest}

theorem approvedChange_eq_ok (h : doc.approvedChange requestId = .ok request) :
    doc.changeRequests.lookup requestId = some request ∧ isApproved request = true := by
  unfold approvedChange at h
  split at h
  · cases h
  · split_ifs at h with happroved
    cases h
    exact ⟨‹_›, happroved⟩

theorem approvedChange_of_lookup (h : doc.changeRequests.lookup requestId = some request)
    (happroved : isApproved request = true) : doc.approvedChange requestId = .ok request := by
  rw [approvedChange, h]
  exact if_pos happroved

theorem verifyApprovedChange_eq_ok {action target : String} {payload : Json}
    (h : doc.verifyApprovedChange env requestId action target payload = .ok request) :
    doc.changeRequests.lookup requestId = some request ∧ isApproved request = true ∧
      request.action = action ∧ request.target = target ∧
      request.payloadSha256 = payloadSha256 env payload := by
  unfold verifyApprovedChange at h
  cases happroved : doc.approvedChange requestId with
  | error =>
    rw [happroved] at h
    cases h
  | ok found =>
    rw [happroved] at h
    obtain ⟨hlookup, his⟩ := approvedChange_eq_ok happroved
    replace h : (if _ = _ ∧ _ = _ ∧
      found.payloadSha256 = payloadSha256 env _ then Except.ok _ else _) = _ := h
    split_ifs at h with hmatches
    cases h
    exact ⟨hlookup, his, hmatches⟩

theorem readApprovedPolicy_eq_ok {policy : StoredPolicy}
    (h : doc.readApprovedPolicy env requestId actorId now = .ok (request, policy)) :
    doc.changeRequests.lookup requestId = some request ∧ isApproved request = true ∧
      request.action = "project_policy.upsert" := by
  unfold readApprovedPolicy at h
  rw [bind_eq_ok_iff] at h
  obtain ⟨_, hfound, h⟩ := h
  split_ifs at h with haction
  · rw [bind_eq_ok_iff] at h
    obtain ⟨_, herror, -⟩ := h
    cases herror
  · simp only [bind_eq_ok_iff] at h
    obtain ⟨_, -, _, -, hresult⟩ := h
    cases hresult
    obtain ⟨hlookup, happroved⟩ := approvedChange_eq_ok hfound
    exact ⟨hlookup, happroved, not_not.mp haction⟩

variable (doc env requestId actorId actorName now saved)

/-- A created request is new and carries the approval of the one who asked for it. -/
theorem createChangeRequest_cases (drawn : ℕ) (input : ChangeRequestInput) :
    (∃ error, doc.createChangeRequest env drawn now actorId actorName input saved =
        (.error error, doc)) ∨
      doc.createChangeRequest env drawn now actorId actorName input saved =
        (.ok (newRequest env drawn now actorId actorName input),
          doc.setRequest (newRequest env drawn now actorId actorName input)) := by
  unfold createChangeRequest
  split
  · exact .inl ⟨_, rfl⟩
  · cases saved with
    | error error => exact .inl ⟨error, rfl⟩
    | ok => exact .inr rfl

/-- The request with one more approval. -/
def ChangeRequest.addApproval (request : ChangeRequest) (approval : ChangeApproval) :
    ChangeRequest :=
  { request with
    approvals := request.approvals ++ [approval]
    status := .approved
    updatedAtMs := approval.approvedAtMs }

theorem approveChangeRequest_cases :
    (∃ error, doc.approveChangeRequest requestId actorId actorName now saved =
        (.error error, doc)) ∨
      ∃ request, doc.changeRequests.lookup requestId = some request ∧ request.status ≠ .applied ∧
        (∀ a ∈ request.approvals, a.actorId ≠ actorId) ∧
        doc.approveChangeRequest requestId actorId actorName now saved =
          (.ok (request.addApproval ⟨actorId, actorName, now⟩),
            doc.setRequest (request.addApproval ⟨actorId, actorName, now⟩)) := by
  unfold approveChangeRequest
  split
  · exact .inl ⟨_, rfl⟩
  next request hlookup =>
    split_ifs with hstatus hsame
    · exact .inl ⟨_, rfl⟩
    · exact .inl ⟨_, rfl⟩
    · cases saved with
      | error error => exact .inl ⟨error, rfl⟩
      | ok => exact .inr ⟨request, hlookup, hstatus, by simpa using hsame, rfl⟩

/-- The request with the mark that it is applied. -/
def ChangeRequest.markApplied (request : ChangeRequest) (now : Numeric.U64) : ChangeRequest :=
  { request with status := .applied, appliedAtMs := some now, updatedAtMs := now }

theorem markChangeApplied_cases :
    (∃ error, doc.markChangeApplied requestId now saved = (.error error, doc) ∧
        ∀ request, doc.changeRequests.lookup requestId = some request → isApproved request = true →
          saved = .error error) ∨
      ∃ request, doc.changeRequests.lookup requestId = some request ∧ isApproved request = true ∧
        doc.markChangeApplied requestId now saved =
          (.ok (), doc.setRequest (request.markApplied now)) := by
  unfold markChangeApplied
  cases hfound : doc.approvedChange requestId with
  | error error =>
    refine .inl ⟨error, rfl, fun request hlookup happroved => ?_⟩
    rw [approvedChange_of_lookup hlookup happroved] at hfound
    cases hfound
  | ok request =>
    obtain ⟨hlookup, happroved⟩ := approvedChange_eq_ok hfound
    cases saved with
    | error error => exact .inl ⟨error, rfl, fun _ _ _ => rfl⟩
    | ok => exact .inr ⟨request, hlookup, happroved, rfl⟩

theorem storePolicy_cases (policy : StoredPolicy) :
    (∃ error policies, doc.storePolicy requestId policy now saved =
        (.error error, { doc with projectPolicies := policies })) ∨
      ∃ request policies, doc.changeRequests.lookup requestId = some request ∧
        doc.storePolicy requestId policy now saved =
          (.ok (), { doc with projectPolicies := policies }.setRequest
            (request.markApplied now)) := by
  unfold storePolicy
  split
  · exact .inl ⟨_, _, rfl⟩
  next request hlookup =>
    cases saved with
    | error error => exact .inl ⟨error, doc.projectPolicies, rfl⟩
    | ok _ => exact .inr ⟨request, _, hlookup, rfl⟩

end

/-! ## Sections of calls -/

@[simp] theorem setCall_calls_self (s : AdminSystem) (n : ℕ) (phase : CallPhase) :
    (s.setCall n phase).calls n = phase := Function.update_self ..

theorem setCall_calls_of_ne (s : AdminSystem) {m n : ℕ} (h : m ≠ n) (phase : CallPhase) :
    (s.setCall n phase).calls m = s.calls m := Function.update_of_ne h ..

/-- What an action can do. The requests change where one is created, approved or applied, and the
history grows there and where an operation takes effect. -/
inductive AdminStep (env : GovernanceEnv) (s : AdminSystem) : AdminAction → AdminSystem → Prop
  | stay (action : AdminAction) : AdminStep env s action s
  | started {n : ℕ} (call : AdminCall) (hcall : s.calls n = .idle) :
      AdminStep env s (.start n call) (s.setCall n call.phase)
  | failed {n : ℕ} {answer : SectionAnswer} (error : AppError) (drawn : ℕ)
      (policies : NameMap StoredPolicy) (hdrawn : s.drawn ≤ drawn)
      (hmark : ∀ c, s.calls n = .mark c → ∀ request, s.doc.changeRequests.lookup c = some request →
        isApproved request = true → ∃ error, answer.saved = .error error) :
      AdminStep env s (.advance n answer)
        ({ s with drawn, doc := { s.doc with projectPolicies := policies } }.setCall n
          (.done (.error error)))
  | created {n : ℕ} {answer : SectionAnswer} {actorId actorName : String}
      (input : ChangeRequestInput) (hcall : s.calls n = .create actorId actorName input)
      {request : ChangeRequest}
      (hrequest : request = newRequest env s.drawn answer.now actorId actorName input) :
      AdminStep env s (.advance n answer)
        (({ s with drawn := s.drawn + 1, doc := s.doc.setRequest request }.record
          [.approved request.id actorId, .created request.id request.operation]).setCall n
            (.done (.ok ())))
  | approved {n : ℕ} {answer : SectionAnswer} {c actorId actorName : String}
      (hcall : s.calls n = .approve c actorId actorName) (request : ChangeRequest)
      (hlookup : s.doc.changeRequests.lookup c = some request) (hstatus : request.status ≠ .applied)
      (hnew : ∀ a ∈ request.approvals, a.actorId ≠ actorId) :
      AdminStep env s (.advance n answer)
        (({ s with doc := s.doc.setRequest (request.addApproval
            ⟨actorId, actorName, answer.now⟩) }.record [.approved request.id actorId]).setCall n
              (.done (.ok ())))
  | looked {n : ℕ} {answer : SectionAnswer} {c actorId : String} {request : ChangeRequest}
      (hcall : s.calls n = .apply c actorId)
      (hlookup : s.doc.changeRequests.lookup c = some request)
      (happroved : isApproved request = true) :
      AdminStep env s (.advance n answer) (s.setCall n (.readPolicy c actorId))
  | chosen {n : ℕ} {answer : SectionAnswer} {c actorId : String} {request : ChangeRequest}
      (hcall : s.calls n = .apply c actorId)
      (hlookup : s.doc.changeRequests.lookup c = some request)
      (happroved : isApproved request = true) (haction : request.action = "budget.hard_limit") :
      AdminStep env s (.advance n answer) (s.setCall n (.effect (budgetUpdate request.payload) c))
  | read {n : ℕ} {answer : SectionAnswer} {c actorId : String} {request : ChangeRequest}
      (policy : StoredPolicy) (hcall : s.calls n = .readPolicy c actorId)
      (hread : s.doc.readApprovedPolicy env c actorId answer.now = .ok (request, policy)) :
      AdminStep env s (.advance n answer)
        (s.setCall n (.storePolicy c (policyUpdate policy request.payload) policy))
  | stored {n : ℕ} {answer : SectionAnswer} {c : String} {operation : GatedOperation}
      {policy : StoredPolicy} {request : ChangeRequest} (policies : NameMap StoredPolicy)
      (hcall : s.calls n = .storePolicy c operation policy)
      (hlookup : s.doc.changeRequests.lookup c = some request) :
      AdminStep env s (.advance n answer)
        (({ s with doc := (setRequest { s.doc with projectPolicies := policies }
            (request.markApplied answer.now)) }.record [.effect c operation]).setCall n
              (.done (.ok ())))
  | verified {n : ℕ} {answer : SectionAnswer} {c : String} {operation : GatedOperation}
      {request : ChangeRequest} (hcall : s.calls n = .verify operation c)
      (hlookup : s.doc.changeRequests.lookup c = some request)
      (happroved : isApproved request = true) (haction : request.action = operation.action)
      (htarget : request.target = operation.target)
      (hpayload : request.payloadSha256 = payloadSha256 env operation.payload) :
      AdminStep env s (.advance n answer) (s.setCall n (.effect operation c))
  | effected {n : ℕ} {answer : SectionAnswer} {c : String} {operation : GatedOperation}
      (hcall : s.calls n = .effect operation c) :
      AdminStep env s (.advance n answer) ((s.record [.effect c operation]).setCall n (.mark c))
  | interrupted {n : ℕ} {answer : SectionAnswer} {c : String} {operation : GatedOperation}
      {error : AppError} (hcall : s.calls n = .effect operation c)
      (houtcome : answer.effect = .interrupted error) :
      AdminStep env s (.advance n answer)
        ((s.record [.effect c operation]).setCall n (.done (.error error)))
  | marked {n : ℕ} {answer : SectionAnswer} {c : String} {request : ChangeRequest}
      (hcall : s.calls n = .mark c) (hlookup : s.doc.changeRequests.lookup c = some request) :
      AdminStep env s (.advance n answer)
        ({ s with doc := s.doc.setRequest (request.markApplied answer.now) }.setCall n
          (.done (.ok ())))

section

variable {env : GovernanceEnv} {s : AdminSystem} {n : ℕ} {answer : SectionAnswer}

theorem AdminStep.of_error (error : AppError) {phase : CallPhase} (hcall : s.calls n = phase)
    (hphase : ∀ c, phase ≠ .mark c) :
    AdminStep env s (.advance n answer) (s.setCall n (.done (.error error))) :=
  .failed _ _ _ le_rfl
    fun c hmark => absurd (hcall.symm.trans hmark) (hphase c)

theorem adminStep_advance (env : GovernanceEnv) (s : AdminSystem) (n : ℕ) (answer : SectionAnswer) :
    AdminStep env s (.advance n answer) (s.advance env n answer) := by
  unfold advance
  cases hcall : s.calls n with
  | idle | done => exact .stay _
  | create actorId actorName input =>
    dsimp only [create]
    rcases createChangeRequest_cases s.doc env actorId actorName answer.now answer.saved s.drawn
        input with ⟨error, herror⟩ | hok
    · simp only [Nat.add_sub_cancel, herror]
      exact .failed _ _ _ (Nat.le_succ _) (by simp [hcall])
    · simp only [Nat.add_sub_cancel, hok]
      exact .created _ hcall rfl
  | approve c actorId actorName =>
    dsimp only [approve]
    rcases approveChangeRequest_cases s.doc c actorId actorName answer.now answer.saved with
      ⟨error, herror⟩ | ⟨request, hlookup, hstatus, hnew, hok⟩
    · simp only [herror]
      exact .of_error _ hcall nofun
    · simp only [hok]
      exact .approved hcall _ hlookup hstatus hnew
  | apply c =>
    dsimp only [apply]
    cases hfound : s.doc.approvedChange c with
    | error error => exact .of_error error hcall nofun
    | ok =>
      obtain ⟨hlookup, happroved⟩ := approvedChange_eq_ok hfound
      dsimp only
      split_ifs with _ hbudget
      · exact .looked hcall hlookup happroved
      · exact .chosen hcall hlookup happroved hbudget
      · exact .of_error _ hcall nofun
  | readPolicy c actorId =>
    dsimp only [readPolicy]
    cases hfound : s.doc.readApprovedPolicy env c actorId answer.now with
    | error error => exact .of_error error hcall nofun
    | ok found => exact .read _ hcall hfound
  | storePolicy c _ policy =>
    dsimp only [AdminSystem.storePolicy]
    rcases storePolicy_cases s.doc c answer.now answer.saved policy with
      ⟨error, policies, herror⟩ | ⟨request, policies, hlookup, hok⟩
    · simp only [herror]
      exact .failed _ _ _ le_rfl (by simp [hcall])
    · simp only [hok]
      exact .stored _ hcall hlookup
  | verify operation c =>
    dsimp only [verify]
    cases hfound : s.doc.verifyApprovedChange env c operation.action operation.target
        operation.payload with
    | error error => exact .of_error error hcall nofun
    | ok request =>
      obtain ⟨hlookup, happroved, haction, htarget, hpayload⟩ := verifyApprovedChange_eq_ok hfound
      exact .verified hcall hlookup happroved haction htarget hpayload
  | effect =>
    cases houtcome : answer.effect with
    | done => exact .effected hcall
    | failed error => exact .of_error error hcall nofun
    | interrupted => exact .interrupted hcall houtcome
  | mark c =>
    dsimp only [mark]
    rcases markChangeApplied_cases s.doc c answer.now answer.saved with
      ⟨error, herror, hsaved⟩ | ⟨request, hlookup, -, hok⟩
    · simp only [herror]
      refine .failed _ _ _ le_rfl fun _ hc' _ hlookup happroved => ?_
      cases hcall.symm.trans hc'
      exact ⟨error, hsaved _ hlookup happroved⟩
    · simp only [hok]
      exact .marked hcall hlookup

theorem adminStep_step (env : GovernanceEnv) (s : AdminSystem) (action : AdminAction) :
    AdminStep env s action (s.step env action) := by
  cases action with
  | start n call =>
    unfold step
    dsimp only
    split
    · exact .started call ‹_›
    · exact .stay _
  | advance n answer => exact adminStep_advance env s n answer

end

end RouteSmith.Model
