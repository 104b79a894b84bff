import RouteSmith.Model.Inference

/-! # The iterations of the attempt loop

What one iteration can do, stated once for the invariants of whole runs, and the fact that
the loop ends.
-/

namespace RouteSmith.Model

open Control List
open LoopState hiding take

variable {env urlHost : String → Option String} {exchange : ExchangeRequest}
  {answers : ℕ → Surroundings} {st st' : LoopState}

/-- The state when an attempt has been answered with an error and is merged into the total. -/
def LoopState.failed (st : LoopState) (exchange : ExchangeRequest) (attempt : ResolvedProvider)
    (rest : List (ResolvedProvider × Bool)) (sent : SentAttempt) (elapsed : ℕ) : LoopState :=
  ((st.take attempt rest).send exchange sent elapsed).mergePrior sent

variable {attempt : ResolvedProvider} {sent : SentAttempt}

variable {io : Surroundings} {repair : Bool} {authorized : List ResolvedProvider}

/-- A provider as it is sent to, with the credential selected for it. -/
def Equipped (env : String → Option String) (control : ControlInner) (now : ℕ)
    (planned sent : ResolvedProvider) : Prop :=
  sent.providerId = planned.providerId ∧ ∃ credentialId,
    control.applySelectedProviderCredentialForRequest env planned.providerId planned.provider now =
      .ok (credentialId, sent.provider)

/-- An attempt that passes the checks is sent as planned, with the credential selected for it. -/
theorem preflight_admitted (h : preflight env urlHost exchange io attempt repair = .admitted sent) :
    sent.result = io.sendInferenceAttempt ∧
      Equipped env io.control io.now attempt sent.resolved := by
  simp only [preflight] at h
  split at h
  · cases h
  · cases h
  · split at h
    · cases h
    · next credentialId provider happly =>
      split at h
      · cases h
      · split at h
        · cases h
        · cases h
          exact ⟨rfl, rfl, credentialId, happly⟩

theorem afterSend_next (h : afterSend exchange attempt sent st = .next st') :
    ∃ error, sent.result = .error error ∧
      ((repairCandidate exchange attempt st.toolRepairAttempted error ∧
          st' = { st.mergePrior sent with
            toolRepairAttempted := true
            attempts := (attempt, true) :: st.attempts }) ∨
        (st.attempts ≠ [] ∧ st' = st.mergePrior sent)) := by
  rw [afterSend] at h
  split at h
  · cases h
  · next error herror =>
    refine ⟨error, herror, ?_⟩
    split_ifs at h with hrepair hstop
    · cases h
      exact .inl ⟨hrepair, rfl⟩
    · cases h
      simp only [Bool.or_eq_true, not_or, List.isEmpty_iff] at hstop
      exact .inr ⟨hstop.2, rfl⟩

theorem afterSend_done (h : afterSend exchange attempt sent st = .done st') :
    ∃ recovered, st' = { st with toolRepairRecovered := recovered } ∧
      ∀ error, sent.result = .error error →
        repairCandidate exchange attempt st.toolRepairAttempted error = false ∧
          (isRetryableMessageError error = false ∨ st.attempts = []) := by
  rw [afterSend] at h
  split at h
  · next response hok =>
    cases h
    exact ⟨sent.repair, rfl, fun error herror => by cases hok.symm.trans herror⟩
  · next error herror =>
    split_ifs at h with hrepair hstop
    cases h
    refine ⟨st.toolRepairRecovered, rfl, fun _ herror' => ?_⟩
    cases herror.symm.trans herror'
    exact ⟨by simpa using hrepair, by simpa using hstop⟩

/-- An iteration that asks for another has either turned its attempt away before the send or
sent it and merged the usage of its failure. -/
theorem attemptBody_next (h : attemptBody env urlHost exchange answers st = .next st') :
    ∃ attempt repair rest, st.attempts = (attempt, repair) :: rest ∧
      (((∀ sent, preflight env urlHost exchange (answers st.iteration) attempt repair ≠
              .admitted sent) ∧
          (∀ error, preflight env urlHost exchange (answers st.iteration) attempt repair ≠
              .stopped error) ∧
          ∃ result, (result = st.result ∨ ∃ error, result = .error error) ∧
            st' = { st.take attempt rest with result := result }) ∨
        ∃ sent error,
          preflight env urlHost exchange (answers st.iteration) attempt repair = .admitted sent ∧
          sent.result = .error error ∧
          ((repairCandidate exchange attempt st.toolRepairAttempted error ∧
            st' = { st.failed exchange attempt rest sent (answers st.iteration).elapsed with
              toolRepairAttempted := true
              attempts := (attempt, true) :: rest }) ∨
          (rest ≠ [] ∧
            st' = st.failed exchange attempt rest sent (answers st.iteration).elapsed))) := by
  rw [attemptBody] at h
  split at h
  · cases h
  · next attempt repair rest hqueue =>
    refine ⟨attempt, repair, rest, hqueue, ?_⟩
    dsimp only at h
    split at h
    · next hpre =>
      cases h
      exact .inl ⟨by simp [hpre], by simp [hpre], st.result, .inl rfl, rfl⟩
    · next error hpre =>
      cases h
      exact .inl ⟨by simp [hpre], by simp [hpre], .error _, .inr ⟨error, rfl⟩, rfl⟩
    · cases h
    · next sent hpre =>
      obtain ⟨error, herror, hcases⟩ := afterSend_next h
      exact .inr ⟨sent, error, hpre, herror, hcases⟩

/-- The iteration that ends the loop finds the queue empty, is stopped by the scheduler or by
the ledger, or has sent an attempt whose answer is final. -/
theorem attemptBody_done (h : attemptBody env urlHost exchange answers st = .done st') :
    (st.attempts = [] ∧ st' = st) ∨ ∃ attempt repair rest, st.attempts = (attempt, repair) :: rest ∧
        ((∃ error, preflight env urlHost exchange (answers st.iteration) attempt repair =
              .stopped error ∧
            st' = { st.take attempt rest with result := .error error }) ∨
          ∃ sent recovered, preflight env urlHost exchange (answers st.iteration) attempt repair =
              .admitted sent ∧
            st' = { (st.take attempt rest).send exchange sent (answers st.iteration).elapsed with
              toolRepairRecovered := recovered } ∧
            ∀ error, sent.result = .error error →
              repairCandidate exchange attempt st.toolRepairAttempted error = false ∧
                (isRetryableMessageError error = false ∨ rest = [])) := by
  rw [attemptBody] at h
  split at h
  · next hqueue =>
    cases h
    exact .inl ⟨hqueue, rfl⟩
  · next attempt repair rest hqueue =>
    refine .inr ⟨attempt, repair, rest, hqueue, ?_⟩
    dsimp only at h
    split at h
    · cases h
    · cases h
    · next error hpre =>
      cases h
      exact .inl ⟨error, hpre, rfl⟩
    · next sent hpre =>
      obtain ⟨recovered, hst', hfinal⟩ := afterSend_done h
      exact .inr ⟨sent, recovered, hpre, hst', hfinal⟩

/-! ## What the loop sends -/

/-- The attempt that an iteration sends, if its checks pass. -/
def LoopState.sending (env urlHost : String → Option String) (exchange : ExchangeRequest)
    (answers : ℕ → Surroundings) (st : LoopState) : List SentAttempt :=
  match st.attempts with
  | [] => []
  | (attempt, repair) :: _ =>
    match preflight env urlHost exchange (answers st.iteration) attempt repair with
    | .admitted sent => [sent]
    | _ => []

theorem afterSend_sent (attempt : ResolvedProvider) (sent : SentAttempt) (st : LoopState) :
    (afterSend exchange attempt sent st).state.sent = st.sent := by
  rw [afterSend]
  split
  · rfl
  · split_ifs <;> rfl

theorem attemptBody_sent (st : LoopState) :
    (attemptBody env urlHost exchange answers st).state.sent =
      st.sent ++ st.sending env urlHost exchange answers := by
  cases hqueue : st.attempts with
  | nil => simp [attemptBody, sending, hqueue, Flow.state]
  | cons head =>
    obtain ⟨attempt, repair⟩ := head
    cases hpre : preflight env urlHost exchange (answers st.iteration) attempt repair with
    | admitted =>
      simp only [attemptBody, sending, hqueue, hpre, afterSend_sent]
      rfl
    | _ => simp [attemptBody, sending, hqueue, hpre, Flow.state, LoopState.take]

theorem mem_sent_iff (h : attemptLoop env urlHost exchange answers authorized = some st) :
    sent ∈ st.sent ↔ ∃ t, Enters (attemptBody env urlHost exchange answers)
      (.initial exchange authorized) t ∧ sent ∈ t.sending env urlHost exchange answers := by
  rw [mem_log_iff attemptBody_sent h]
  simp [initial]

/-! ## The loop ends -/

/-- The iterations that are still possible: one for each queued attempt, and the repair. -/
def LoopState.remaining (st : LoopState) : ℕ :=
  st.attempts.length + (!st.toolRepairAttempted).toNat

theorem attemptBody_remaining (h : attemptBody env urlHost exchange answers st = .next st') :
    st'.remaining < st.remaining := by
  obtain ⟨_, _, _, hqueue, hcases⟩ := attemptBody_next h
  rcases hcases with ⟨-, -, _, -, rfl⟩ | ⟨_, error, -, -, ⟨hrepair, rfl⟩ | ⟨-, rfl⟩⟩
  · simp only [remaining, LoopState.take, hqueue, length_cons]
    omega
  · -- the attempt goes back to the queue, but never for a second repair
    have hfirst : st.toolRepairAttempted = false := by
      cases error <;> simp_all [repairCandidate]
    simp [remaining, hqueue, hfirst]
  · simp only [remaining, failed, mergePrior, send,
      LoopState.take, hqueue, length_cons]
    omega

theorem exists_attemptLoop (env urlHost : String → Option String) (exchange : ExchangeRequest)
    (answers : ℕ → Surroundings) (authorized : List ResolvedProvider) :
    ∃ st, attemptLoop env urlHost exchange answers authorized = some st :=
  exists_iterate_eq_some _ (fun _ _ => attemptBody_remaining) (by simp [remaining, initial])

theorem attemptLoop_ends (env urlHost : String → Option String) (exchange : ExchangeRequest)
    (answers : ℕ → Surroundings) (authorized : List ResolvedProvider) :
    ∃ st st', Enters (attemptBody env urlHost exchange answers) (.initial exchange authorized) st ∧
      attemptBody env urlHost exchange answers st = .done st' ∧
      attemptLoop env urlHost exchange answers authorized = some st' := by
  obtain ⟨st', hst'⟩ := exists_attemptLoop env _ _ _ _
  obtain ⟨st, hst, hdone⟩ := exists_done_of_iterate hst'
  exact ⟨st, st', hst, hdone, hst'⟩

/-! ## What is sent again -/

/-- The attempt just taken is put back for a repair. -/
def LoopState.Requeues (st st' : LoopState) : Prop :=
  ∃ attempt repair rest, st.attempts = (attempt, repair) :: rest ∧
    st'.attempts = (attempt, true) :: rest

theorem LoopState.Requeues.toolRepairAttempted (hrequeues : st.Requeues st')
    (h : attemptBody env urlHost exchange answers st = .next st') :
    st.toolRepairAttempted = false ∧ st'.toolRepairAttempted = true := by
  obtain ⟨_, _, _, hqueue', hagain⟩ := hrequeues
  obtain ⟨_, _, _, hqueue, hcases⟩ := attemptBody_next h
  cases hqueue.symm.trans hqueue'
  rcases hcases with ⟨-, -, _, -, rfl⟩ | ⟨_, error, -, -, ⟨hrepair, rfl⟩ | ⟨-, rfl⟩⟩
  · simpa [take] using congrArg length hagain
  · exact ⟨by cases error <;> simp_all [repairCandidate], rfl⟩
  · simpa [failed, mergePrior, send, take] using
      congrArg length hagain

theorem toolRepairAttempted_mono (h : attemptBody env urlHost exchange answers st = .next st')
    (hst : st.toolRepairAttempted = true) : st'.toolRepairAttempted = true := by
  obtain ⟨_, _, _, -, hcases⟩ := attemptBody_next h
  rcases hcases with ⟨-, -, _, -, rfl⟩ | ⟨_, _, -, -, ⟨-, rfl⟩ | ⟨-, rfl⟩⟩
  · exact hst
  · rfl
  · exact hst

theorem sending_of_next (h : attemptBody env urlHost exchange answers st = .next st')
    (hsent : sent ∈ st.sending env urlHost exchange answers) :
    ∃ error, sent.result = .error error ∧ isRetryableMessageError error = true := by
  cases hqueue : st.attempts with
  | nil => simp [sending, hqueue] at hsent
  | cons head =>
    obtain ⟨attempt, repair⟩ := head
    cases hpre : preflight env urlHost exchange (answers st.iteration) attempt repair with
    | admitted admitted =>
      obtain rfl : sent = admitted := by simpa [sending, hqueue, hpre] using hsent
      simp only [attemptBody, hqueue, hpre, afterSend] at h
      split at h
      · cases h
      · next error herror =>
        refine ⟨error, herror, ?_⟩
        split_ifs at h with hrepair hstop
        · cases error <;> simp_all [repairCandidate, isRetryableMessageError]
        · exact And.left (by simpa using hstop)
    | _ => simp [sending, hqueue, hpre] at hsent

variable (env urlHost exchange answers) in
theorem length_sending_le (st : LoopState) :
    (st.sending env urlHost exchange answers).length ≤ min 1 st.attempts.length := by
  rw [sending]
  split
  · simp
  · split <;> simp [*]

/-- What the loop keeps from one iteration to the next: all that was sent has failed with an error
that lets it go on, and the sends that are left are counted. -/
structure Resends (authorized : List ResolvedProvider) (st : LoopState) : Prop where
  retryable : ∀ sent ∈ st.sent, ∃ error, sent.result = .error error ∧
    isRetryableMessageError error = true
  bound : st.sent.length + st.remaining ≤ authorized.length + 1

theorem Resends.next (h : Resends authorized st)
    (hnext : attemptBody env urlHost exchange answers st = .next st') : Resends authorized st' := by
  have hsent : st'.sent = st.sent ++ st.sending env urlHost exchange answers := by
    rw [← attemptBody_sent, hnext, Flow.state]
  refine ⟨fun sent hmem => ?_, ?_⟩
  · rcases mem_append.mp (hsent ▸ hmem) with hmem | hmem
    · exact h.retryable sent hmem
    · exact sending_of_next hnext hmem
  · have hlength := congrArg length hsent
    rw [length_append] at hlength
    have := length_sending_le env urlHost exchange answers st
    have := attemptBody_remaining hnext
    have := h.bound
    omega

/-- The loop ends; it puts no attempt back a second time, sends one attempt more than planned at
most, and sends on only after a transport or protocol error, invalid tool arguments, or a status of
429 or from 500 on. -/
theorem attemptLoop_sends (env urlHost : String → Option String) (exchange : ExchangeRequest)
    (answers : ℕ → Surroundings) (authorized : List ResolvedProvider) :
    ∃ st, attemptLoop env urlHost exchange answers authorized = some st ∧
      st.sent.length ≤ authorized.length + 1 ∧
      (∀ t t' u u', Enters (attemptBody env urlHost exchange answers)
        (.initial exchange authorized) t →
        attemptBody env urlHost exchange answers t = .next t' → t.Requeues t' →
        Enters (attemptBody env urlHost exchange answers) t' u →
        attemptBody env urlHost exchange answers u = .next u' → ¬u.Requeues u') ∧
      ∀ before sent after, st.sent = before ++ sent :: after → after ≠ [] →
        ∃ error, sent.result = .error error ∧
          ((∃ message, error = .transport message) ∨
            (∃ message, error = .upstreamProtocol message) ∨
            (∃ a b c, error = .toolArgumentsInvalid a b c) ∨
            ∃ status body, error = .upstream status body ∧ (status = 429 ∨ 500 ≤ status)) := by
  obtain ⟨t, st, ht, hdone, hst⟩ := attemptLoop_ends env urlHost _ answers _
  have hinitial : Resends authorized (.initial exchange authorized) :=
    ⟨by simp [initial], by simp [initial, remaining]⟩
  have hresends := ht.invariant hinitial fun _ _ _ h => h.next
  have hsent : st.sent = t.sent ++ t.sending env urlHost exchange answers := by
    rw [← attemptBody_sent, hdone, Flow.state]
  have hsending := length_sending_le env urlHost exchange answers t
  refine ⟨st, hst, ?_, ?_, ?_⟩
  · have := hresends.bound
    rw [hsent, length_append]
    simp only [remaining] at this
    omega
  · intro t _ u _ _ hnext hrequeues hu hnext' hrequeues'
    have hattempted := hu.invariant (hrequeues.toolRepairAttempted hnext).2 fun _ _ _ h hnext =>
        toolRepairAttempted_mono hnext h
    exact absurd hattempted (by simp [(hrequeues'.toolRepairAttempted hnext').1])
  · intro _ sent _ hsplit hafter
    -- what is sent last is all that the last iteration can have sent
    have hmem : sent ∈ t.sent := by
      have hpos := length_pos_iff.mpr hafter
      rcases append_eq_append_iff.mp (hsent.symm.trans hsplit) with
        ⟨more, -, hmore⟩ | ⟨more, hmore, hrest⟩
      · have := congrArg length hmore
        simp at this
        omega
      · cases more with
        | nil =>
          have := congrArg length hrest
          simp at this
          omega
        | cons =>
          obtain ⟨rfl, -⟩ := cons.inj hrest
          simp [hmore]
    obtain ⟨error, herror, hretryable⟩ := hresends.retryable sent hmem
    cases error <;> simp_all [isRetryableMessageError]

/-! ## Sample inputs -/

/-- A request of 4000 characters for at most 200 tokens. -/
def sampleExchange (stream : Bool) : ExchangeRequest where
  requestedModel := "code"
  stream := stream
  anthropicClient := true
  usesTools := true
  hasToolResults := false
  thinkingDisabled := false
  serializedInputChars := 4000
  estimatedOutputTokens := .ofNat _ 200

/-- An iteration in which every check passes. -/
def sampleSurroundings (attemptId : String) (send : Except AppError Response) : Surroundings where
  attemptId := attemptId
  now := 0
  control := {}
  acquire := .ok .acquired
  checkQuotas := .ok ()
  checkUsagePolicy := .ok ()
  validateInferenceAttempt := .ok ()
  checkProviderAttempt := .ok ()
  beginAttempt := .ok ⟨attemptId, "req", attemptId, .local, "gateway"⟩
  sendInferenceAttempt := send
  lifecycle := {}
  elapsed := 10

def noHost : String → Option String := fun _ => none

def samplePlan : List ResolvedProvider :=
  ["first", "second"].map fun id =>
    ⟨id, { protocol := .openaiCompat, baseUrl := "https://provider.example/v1",
           defaultModel := "claude-haiku-4" }, "claude-haiku-4"⟩

/-- The status 600 is of none of the classes, and the loop sends on after it. -/
theorem attemptLoop_sends_after_600 :
    (attemptLoop noHost noHost (sampleExchange false)
        (fun | 0 => sampleSurroundings "att_0" (.error (.upstream 600 ""))
             | _ => sampleSurroundings "att_1" (.ok ⟨200, none⟩)) samplePlan).map
        (fun st => st.sent.map (·.result)) =
      some [.error (.upstream 600 ""), .ok ⟨200, none⟩] := by
  decide

end RouteSmith.Model
