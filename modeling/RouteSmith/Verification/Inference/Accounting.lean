import RouteSmith.Verification.Inference.Steps
import RouteSmith.Verification.Ledger.Settlement

/-! # What a request and its attempts are charged

The request row of the ledger carries the usage of all attempts, each attempt row that of one.
The loop merges the usage of a failed attempt when it goes on to the next, and adds the last
one at the end.
-/

namespace RouteSmith.Model

open Control Numeric Store Model.Ledger LoopState SentAttempt

variable {env urlHost : String → Option String} {exchange : ExchangeRequest}
  {answers : ℕ → Surroundings} {st st' : LoopState} {stream : StreamEnd} {latency : ℕ}

/-! ## The usage of one attempt -/

/-- The usage of a stream: what it reported while it ran, or else as for any other attempt. -/
def SentAttempt.streamUsage (sent : SentAttempt) (stream : StreamEnd) : UsageEstimate :=
  match stream.lifecycle.usage with
  | some tokens => chargeForModelWithPricing sent.model tokens sent.pricing
  | none => sent.usage

/-- The usage of an attempt alone. -/
def SentAttempt.ownUsage (exchange : ExchangeRequest) (stream : StreamEnd) (sent : SentAttempt) :
    UsageEstimate :=
  if exchange.stream && sent.result.isOk then sent.streamUsage stream else sent.usage

/-- An attempt and the usage it is finalized with. -/
def charged (call : LedgerAttempt × LedgerOutcome) : LedgerAttempt × UsageEstimate :=
  (call.1, call.2.estimate)

/-! ## Between iterations -/

/-- When an iteration starts, every attempt sent so far has failed, is finalized with its own
usage, and is merged into the prior usage. -/
structure Accounted (st : LoopState) : Prop where
  finalized_eq : st.finalized.map charged = st.sent.map fun s => (s.ledgerAttempt, s.usage)
  prior_tokens : st.priorAttemptUsage.tokens = (st.sent.map fun s => s.usage.tokens).sum
  prior_default : st.sent = [] → st.priorAttemptUsage = {}
  lastSent_eq_none_iff : st.lastSent = none ↔ st.sent = []
  result_isOk : st.result.isOk = false
  sent_failed : ∀ s ∈ st.sent, s.result.isOk = false

theorem accounted_initial (exchange : ExchangeRequest) (authorized : List ResolvedProvider) :
    Accounted (.initial exchange authorized) where
  finalized_eq := rfl
  prior_tokens := rfl
  prior_default _ := rfl
  lastSent_eq_none_iff := by simp [initial]
  result_isOk := rfl
  sent_failed := by simp [initial]

variable {sent : SentAttempt}

theorem Accounted.failed (h : Accounted st) (hfailed : sent.result.isOk = false)
    (exchange : ExchangeRequest) (attempt : ResolvedProvider)
    (rest : List (ResolvedProvider × Bool)) (elapsed : ℕ) :
    Accounted (st.failed exchange attempt rest sent elapsed) where
  finalized_eq := by
    simpa [LoopState.failed, mergePrior, send, take, hfailed,
      charged, outcome, LedgerOutcome.providerAttempt] using h.finalized_eq
  prior_tokens := by
    simp [LoopState.failed, mergePrior, send, take, tokens_mergeUsageEstimates, h.prior_tokens]
  prior_default := by
    simp [LoopState.failed, mergePrior, send]
  lastSent_eq_none_iff := by
    simp [LoopState.failed, mergePrior, send]
  result_isOk := hfailed
  sent_failed := by
    simp only [LoopState.failed, mergePrior, send, List.mem_append,
      List.mem_singleton]
    rintro s (hs | rfl)
    · exact h.sent_failed s hs
    · exact hfailed

theorem Accounted.next (h : Accounted st)
    (hnext : attemptBody env urlHost exchange answers st = .next st') : Accounted st' := by
  obtain ⟨attempt, _, rest, -, hcases⟩ := attemptBody_next hnext
  rcases hcases with ⟨-, -, _, hresult, rfl⟩ | ⟨sent, _, -, herror, hst'⟩
  · refine ⟨h.finalized_eq, h.prior_tokens, h.prior_default, h.lastSent_eq_none_iff, ?_,
      h.sent_failed⟩
    rcases hresult with rfl | ⟨_, rfl⟩
    · exact h.result_isOk
    · rfl
  · have hfailed : sent.result.isOk = false := by rw [herror]; rfl
    have hacc := h.failed hfailed exchange attempt rest (answers st.iteration).elapsed
    rcases hst' with ⟨-, rfl⟩ | ⟨-, rfl⟩
    · exact ⟨hacc.1, hacc.2, hacc.3, hacc.4, hacc.5, hacc.6⟩
    · exact hacc

theorem accounted_of_enters {authorized : List ResolvedProvider}
    (h : Enters (attemptBody env urlHost exchange answers) (.initial exchange authorized) st) :
    Accounted st :=
  h.invariant (accounted_initial _ _) fun _ _ _ hacc => hacc.next

/-! ## When the loop has ended -/

theorem SentAttempt.usage_of_ok (h : sent.result.isOk) :
    (sent.result.toOption.bind (·.usage)).getD sent.estimate = sent.usage := by
  cases hresult : sent.result with
  | error => simp [hresult, Except.toBool] at h
  | ok => simp [usage, reportedUsage, hresult, Except.toOption]

theorem SentAttempt.usage_of_error {error : AppError} (h : sent.result = .error error)
    (hnone : error.toolArgumentUsage = none) : sent.usage = sent.estimate := by
  simp [usage, reportedUsage, h, hnone]

/-- The state in which the loop ends on an attempt it has sent. -/
def LoopState.answered (st : LoopState) (exchange : ExchangeRequest) (attempt : ResolvedProvider)
    (rest : List (ResolvedProvider × Bool)) (sent : SentAttempt) (elapsed : ℕ)
    (recovered : Bool) : LoopState :=
  { (st.take attempt rest).send exchange sent elapsed with toolRepairRecovered := recovered }

section

variable {attempt : ResolvedProvider} {rest : List (ResolvedProvider × Bool)}
  {sent : SentAttempt} {elapsed : ℕ} {recovered : Bool}

/-- A stream is finalized when it has ended, with the usage of the whole request. -/
theorem ledgerCalls_stream (h : (exchange.stream && sent.result.isOk) = true) :
    let calls := ledgerCalls exchange
      (st.answered exchange attempt rest sent elapsed recovered) latency stream
    calls.attempts.map charged = st.finalized.map charged ++
        [(sent.ledgerAttempt, mergeUsageEstimates st.priorAttemptUsage (sent.streamUsage stream))] ∧
      calls.request.estimate =
        mergeUsageEstimates st.priorAttemptUsage (sent.streamUsage stream) := by
  have hok : sent.result.isOk = true := by simp_all
  have husage := sent.usage_of_ok hok
  cases hlifecycle : stream.lifecycle.usage <;>
    simp [ledgerCalls, answered, send, take, h, charged,
      finalizeStream, usageEvent, hlifecycle, husage, streamUsage,
      LedgerOutcome.fromUsageWithLatency]

/-- Any other attempt is finalized at once, and the request afterwards. -/
theorem ledgerCalls_answered (h : (exchange.stream && sent.result.isOk) = false) :
    let calls := ledgerCalls exchange
      (st.answered exchange attempt rest sent elapsed recovered) latency stream
    calls.attempts.map charged = st.finalized.map charged ++ [(sent.ledgerAttempt, sent.usage)] ∧
      calls.request.estimate = mergeUsageEstimates st.priorAttemptUsage
        ((sent.result.toOption.bind (·.usage)).getD sent.estimate) := by
  simp [ledgerCalls, answered, send, take, h, charged,
    usageEvent, outcome, LedgerOutcome.providerAttempt]

end

theorem ledgerCalls_unsent (exchange : ExchangeRequest) (latency : ℕ) (stream : StreamEnd)
    (h : st.lastSent = none) :
    (ledgerCalls exchange st latency stream).attempts = st.finalized ∧
      (ledgerCalls exchange st latency stream).request.estimate =
        mergeUsageEstimates st.priorAttemptUsage ((st.result.toOption.bind (·.usage)).getD {}) := by
  simp [ledgerCalls, h, usageEvent]

theorem ledgerCalls_failed (h : st.result.isOk = false) :
    (ledgerCalls exchange st latency stream).attempts = st.finalized := by
  cases hlast : st.lastSent <;> simp [ledgerCalls, hlast, h]

/-! ## Sample runs -/

theorem exists_preflight_sample (exchange : ExchangeRequest) (attemptId : String)
    (send : Except AppError Response) (attempt : ResolvedProvider) (repair : Bool) :
    ∃ sent, preflight noHost noHost exchange (sampleSurroundings attemptId send) attempt repair =
      .admitted sent := by
  simp only [preflight, sampleSurroundings, ite_self]
  exact ⟨_, rfl⟩

/-- The first provider fails in transport; the second answers. -/
def retriedAnswers : ℕ → Surroundings
  | 0 => sampleSurroundings "att_0" (.error (.transport "connection reset"))
  | _ => sampleSurroundings "att_1" (.ok ⟨200, none⟩)

/-- The first provider fails in transport; the quota of the second is exhausted. -/
def exhaustedAnswers : ℕ → Surroundings
  | 0 => retriedAnswers 0
  | _ => { retriedAnswers 1 with checkQuotas := .error (.quotaExceeded "provider quota") }

/-- The first provider fails in transport; the second answers and reports its usage. -/
def reportedAnswers : ℕ → Surroundings
  | 0 => retriedAnswers 0
  | _ => sampleSurroundings "att_1" (.ok ⟨200, some { inputTokens := .ofNat _ 300 }⟩)

/-- A rejected tool call with the usage its provider reported. -/
def rejectedAnswers : ℕ → Surroundings := fun _ => sampleSurroundings "att_0"
  (.error (.toolArgumentsInvalid "/path" "/type" (some ⟨.ofNat _ 300, .ofNat _ 40, 0, 0⟩)))

/-- A stream that reported 10 input and 5 output tokens. -/
def sampleStreamEnd : StreamEnd :=
  ⟨.completed, { state := .completed, usage := some ⟨.ofNat _ 10, .ofNat _ 5, 0, 0⟩ }, 20, 15⟩

/-- The input tokens of the request and of each attempt it finalized. -/
def inputTokens (exchange : ExchangeRequest) (st : LoopState) (stream : StreamEnd) :
    ℕ × List ℕ :=
  let calls := ledgerCalls exchange st 20 stream
  (calls.request.estimate.inputTokens.val,
    calls.attempts.map fun c => c.2.estimate.inputTokens.val)

/-! ## Attempts -/

theorem SentAttempt.ownUsage_of_failed (h : sent.result.isOk = false) :
    sent.ownUsage exchange stream = sent.usage := by
  simp [ownUsage, h]

theorem Accounted.finalized_ownUsage (h : Accounted st) (exchange : ExchangeRequest)
    (stream : StreamEnd) : st.finalized.map charged =
      st.sent.map fun s => (s.ledgerAttempt, s.ownUsage exchange stream) := by
  rw [h.finalized_eq]
  exact List.map_congr_left fun s hs => by
    rw [ownUsage_of_failed (h.sent_failed s hs)]

/-- The provider answers a stream only while no attempt of the request has been sent yet. -/
def StreamsFirst (exchange : ExchangeRequest) (answers : ℕ → Surroundings) (st : LoopState) :
    Prop :=
  exchange.stream → (answers st.iteration).sendInferenceAttempt.isOk → st.lastSent = none

theorem Accounted.attempts_charged (h : Accounted st) (hfirst : StreamsFirst exchange answers st)
    (hdone : attemptBody env urlHost exchange answers st = .done st') (latency : ℕ)
    (stream : StreamEnd) :
    (ledgerCalls exchange st' latency stream).attempts.map charged =
      st'.sent.map fun s => (s.ledgerAttempt, s.ownUsage exchange stream) := by
  rcases attemptBody_done hdone with
    ⟨-, rfl⟩ | ⟨attempt, repair, rest, -, ⟨error, -, rfl⟩ | ⟨sent, recovered, hpre, rfl, -⟩⟩
  · rw [ledgerCalls_failed h.result_isOk, h.finalized_ownUsage]
  · rw [ledgerCalls_failed rfl]
    exact h.finalized_ownUsage _ _
  · cases hstream : exchange.stream && sent.result.isOk with
    | false =>
      have hown : sent.ownUsage exchange stream = sent.usage := by
        rw [ownUsage, hstream]
        rfl
      refine (ledgerCalls_answered hstream).1.trans ?_
      rw [h.finalized_ownUsage exchange stream]
      simp [send, take, hown]
    | true =>
      -- nothing was sent before the stream, so there is no prior usage to add to its own
      have hresult := (preflight_admitted hpre).1
      have hsent : st.sent = [] := h.lastSent_eq_none_iff.mp
        (hfirst (by simp_all) (by rw [← hresult]; simp_all))
      have hown : sent.ownUsage exchange stream = sent.streamUsage stream := by
        rw [ownUsage, hstream]
        rfl
      refine (ledgerCalls_stream hstream).1.trans ?_
      rw [h.finalized_ownUsage exchange stream, h.prior_default hsent]
      simp [send, take, hown]

/-- In every run in which a stream is answered only by the first attempt sent, each attempt is
finalized with its own usage. Whatever row of it the ledger changes then carries that usage,
and the amounts settled for the request add up to those of its attempts. -/
theorem attempts_finalized_with_own_usage (env urlHost : String → Option String)
    (exchange : ExchangeRequest) (answers : ℕ → Surroundings) (authorized : List ResolvedProvider)
    (latency : ℕ) (stream : StreamEnd)
    (h : ∀ st, Enters (attemptBody env urlHost exchange answers) (.initial exchange authorized) st →
      StreamsFirst exchange answers st) :
    ∃ st, attemptLoop env urlHost exchange answers authorized = some st ∧
      let calls := (ledgerCalls exchange st latency stream).attempts
      calls.map charged = (st.sent.map fun s => (s.ledgerAttempt, s.ownUsage exchange stream)) ∧
      (calls.map fun c => costMicrounits c.2.estimate.costEstimate).sum =
        (st.sent.map fun s => costMicrounits (s.ownUsage exchange stream).costEstimate).sum ∧
      ∀ c ∈ calls, ∃ sent ∈ st.sent, sent.ledgerAttempt = c.1 ∧
        ∀ sha256 created s s' i call,
          Reachable sha256 created s → Server.Step (Call.program sha256) i s s' →
          (s'.calls i).op = some call → call.operation = .finalizeAttempt c.1 c.2 →
          SettledBy c.1 (sent.ownUsage exchange stream) s s' := by
  obtain ⟨st, st', hst, hdone, hloop⟩ := attemptLoop_ends env _ _ _ _
  have hcharged := (accounted_of_enters hst).attempts_charged (h st hst) hdone latency stream
  refine ⟨st', hloop, hcharged, ?_, fun c hc => ?_⟩
  · have := congrArg (fun l => (l.map fun p => costMicrounits p.2.costEstimate).sum) hcharged
    simpa [Function.comp_def, charged] using this
  · have hmem := hcharged ▸ List.mem_map_of_mem hc
    obtain ⟨sent, hsent, heq⟩ := List.mem_map.mp hmem
    simp only [charged, Prod.mk.injEq] at heq
    refine ⟨sent, hsent, heq.1, fun _ _ s _ i _ hreach hstep hcall hop => ?_⟩
    rw [heq.2]
    exact finalizeAttempt_settledBy hreach hstep hcall hop

/-- A failed attempt is charged its estimate, and the one that answers after it what it reported. -/
theorem attempts_finalized_with_own_usage_sample : ∃ st,
    attemptLoop noHost noHost (sampleExchange false) reportedAnswers samplePlan = some st ∧
      inputTokens (sampleExchange false) st sampleStreamEnd = (1300, [1000, 300]) ∧
      (ledgerCalls (sampleExchange false) st 20 sampleStreamEnd).attempts.map charged =
        st.sent.map fun s =>
          (s.ledgerAttempt, s.ownUsage (sampleExchange false) sampleStreamEnd) := by
  obtain ⟨st, hloop, hcharged, -⟩ := attempts_finalized_with_own_usage noHost noHost
    (sampleExchange false) reportedAnswers samplePlan 20 sampleStreamEnd fun _ _ hstream => by
      cases hstream
  have htokens : (attemptLoop noHost noHost (sampleExchange false) reportedAnswers samplePlan).map
      (fun st => inputTokens (sampleExchange false) st sampleStreamEnd) =
        some (1300, [1000, 300]) := by
    decide
  rw [hloop] at htokens
  exact ⟨st, hloop, Option.some.inj htokens, hcharged⟩

/-- A stream that follows a failed attempt is finalized with the usage of both: its row and
its reservation are charged the 1000 estimated tokens of the other attempt once more. -/
theorem streamed_retry_charged_twice :
    (attemptLoop noHost noHost (sampleExchange true) retriedAnswers samplePlan).map
        (fun st => inputTokens (sampleExchange true) st sampleStreamEnd) =
      some (1010, [1000, 1010]) := by
  decide

/-! ## Requests -/

/-- The tokens of the attempts that have been finalized. -/
def chargedTokens (calls : List (LedgerAttempt × LedgerOutcome)) : TokenUsageBreakdown :=
  (calls.map fun c => c.2.estimate.tokens).sum

theorem chargedTokens_eq (calls : List (LedgerAttempt × LedgerOutcome)) :
    chargedTokens calls = ((calls.map charged).map (·.2.tokens)).sum := by
  simp [chargedTokens, charged, Function.comp_def]

theorem Accounted.chargedTokens_finalized (h : Accounted st) :
    ((st.finalized.map charged).map (·.2.tokens)).sum = st.priorAttemptUsage.tokens := by
  rw [h.finalized_eq, h.prior_tokens]
  simp [Function.comp_def]

/-- An iteration after which the request is still charged for each attempt once: one that
follows a sent attempt does not end the loop unsent, a rejected tool call that reports its
usage is not the end, and a stream is answered only by the first attempt. -/
structure CountsOnce (env urlHost : String → Option String) (exchange : ExchangeRequest)
    (answers : ℕ → Surroundings) (st : LoopState) : Prop where
  sends : ∀ attempt repair rest, st.attempts = (attempt, repair) :: rest → st.lastSent.isSome →
    (∃ sent, preflight env urlHost exchange (answers st.iteration) attempt repair =
        .admitted sent) ∨
      (rest ≠ [] ∧ ∀ error, preflight env urlHost exchange (answers st.iteration) attempt repair ≠
        .stopped error)
  reports : ∀ attempt repair rest error, st.attempts = (attempt, repair) :: rest →
    (answers st.iteration).sendInferenceAttempt = .error error → error.toolArgumentUsage.isSome →
    repairCandidate exchange attempt st.toolRepairAttempted error ∨ rest ≠ []
  streams : StreamsFirst exchange answers st

/-- Under these conditions the queue runs empty only if nothing was sent. -/
theorem CountsOnce.next (h : CountsOnce env urlHost exchange answers st)
    (hnext : attemptBody env urlHost exchange answers st = .next st') (hempty : st'.attempts = []) :
    st'.lastSent = none := by
  obtain ⟨attempt, repair, rest, hqueue, hcases⟩ := attemptBody_next hnext
  rcases hcases with ⟨hunsent, -, _, -, rfl⟩ | ⟨sent, _, -, -, ⟨-, rfl⟩ | ⟨hrest, rfl⟩⟩
  · by_contra hlast
    rcases h.sends attempt repair rest hqueue (Option.ne_none_iff_isSome.mp hlast) with
      ⟨sent, hsent⟩ | ⟨hrest, -⟩
    · exact hunsent sent hsent
    · exact hrest hempty
  · cases hempty
  · exact absurd hempty hrest

theorem Accounted.tokens_unsent (h : Accounted st) (hlast : st.lastSent = none) :
    (ledgerCalls exchange st latency stream).request.estimate.tokens =
      chargedTokens (ledgerCalls exchange st latency stream).attempts := by
  have hsent := h.lastSent_eq_none_iff.mp hlast
  obtain ⟨hattempts, hestimate⟩ := ledgerCalls_unsent _ _ _ hlast
  have hresult : st.result.toOption = none := by
    cases hres : st.result with
    | error => rfl
    | ok =>
      have := h.result_isOk
      simp [hres, Except.toBool] at this
  rw [hattempts, hestimate, chargedTokens_eq, h.chargedTokens_finalized, h.prior_default hsent,
    hresult]
  rfl

theorem Accounted.tokens_charged (h : Accounted st) (hempty : st.attempts = [] → st.lastSent = none)
    (hcounts : CountsOnce env urlHost exchange answers st)
    (hdone : attemptBody env urlHost exchange answers st = .done st') (latency : ℕ)
    (stream : StreamEnd) :
    (ledgerCalls exchange st' latency stream).request.estimate.tokens =
      chargedTokens (ledgerCalls exchange st' latency stream).attempts := by
  rcases attemptBody_done hdone with ⟨hqueue, rfl⟩ |
    ⟨attempt, repair, rest, hqueue, ⟨error, hpre, rfl⟩ | ⟨sent, recovered, hpre, rfl, hfinal⟩⟩
  · exact h.tokens_unsent (hempty hqueue)
  · -- the loop is stopped before anything was sent
    have hlast : st.lastSent = none := by
      by_contra hlast
      rcases hcounts.sends attempt repair rest hqueue (Option.ne_none_iff_isSome.mp hlast) with
        ⟨sent, hsent⟩ | ⟨-, hstopped⟩
      · cases hpre.symm.trans hsent
      · exact hstopped _ hpre
    have hacc : Accounted { st.take attempt rest with result := .error error } :=
      ⟨h.1, h.2, h.3, h.4, rfl, h.6⟩
    exact hacc.tokens_unsent hlast
  · have hresult := (preflight_admitted hpre).1
    cases hstream : exchange.stream && sent.result.isOk with
    | true =>
      have hsent : st.sent = [] := h.lastSent_eq_none_iff.mp
        (hcounts.streams (by simp_all) (by rw [← hresult]; simp_all))
      obtain ⟨hattempts, hestimate⟩ := ledgerCalls_stream hstream
      rw [chargedTokens_eq]
      refine (congrArg UsageEstimate.tokens hestimate).trans ?_
      refine trans ?_ (congrArg (fun l => (l.map (·.2.tokens)).sum) hattempts).symm
      simp [h.finalized_eq, hsent]
    | false =>
      -- the tail of the request is the usage the attempt was finalized with
      have htail : (sent.result.toOption.bind (·.usage)).getD sent.estimate = sent.usage := by
        cases hres : sent.result with
        | ok => rw [← hres, usage_of_ok (by rw [hres]; rfl)]
        | error error =>
          obtain ⟨hrepair, hlast⟩ := hfinal _ hres
          have hnone : error.toolArgumentUsage = none := by
            by_contra hsome
            rcases hcounts.reports attempt repair rest error hqueue (hresult ▸ hres)
              (Option.ne_none_iff_isSome.mp hsome) with hcandidate | hrest
            · simp [hrepair] at hcandidate
            · rcases hlast with hretry | hnil
              · cases error <;> simp_all [AppError.toolArgumentUsage, isRetryableMessageError]
              · exact hrest hnil
          rw [usage_of_error hres hnone]
          rfl
      obtain ⟨hattempts, hestimate⟩ := ledgerCalls_answered hstream
      rw [chargedTokens_eq]
      refine (congrArg UsageEstimate.tokens hestimate).trans ?_
      refine trans ?_ (congrArg (fun l => (l.map (·.2.tokens)).sum) hattempts).symm
      rw [htail, tokens_mergeUsageEstimates, List.map_append, List.sum_append,
        h.chargedTokens_finalized]
      simp

/-- In every run whose iterations all meet `CountsOnce`, every sent attempt is finalized once,
and the token counts of the request are the saturating sums of those of its attempts. -/
theorem request_tokens_eq_sum (env urlHost : String → Option String) (exchange : ExchangeRequest)
    (answers : ℕ → Surroundings) (authorized : List ResolvedProvider) (latency : ℕ)
    (stream : StreamEnd)
    (h : ∀ st, Enters (attemptBody env urlHost exchange answers) (.initial exchange authorized) st →
      CountsOnce env urlHost exchange answers st) :
    ∃ st, attemptLoop env urlHost exchange answers authorized = some st ∧
      (ledgerCalls exchange st latency stream).attempts.map Prod.fst =
        st.sent.map (·.ledgerAttempt) ∧
      (ledgerCalls exchange st latency stream).request.estimate.tokens =
        chargedTokens (ledgerCalls exchange st latency stream).attempts := by
  obtain ⟨st, st', hst, hdone, hloop⟩ := attemptLoop_ends env _ _ _ _
  have hacc := accounted_of_enters hst
  have hempty := hst.invariant (fun _ => rfl) fun t u ht _ => (h t ht).next
  refine ⟨st', hloop, ?_, hacc.tokens_charged hempty (h st hst) hdone _ _⟩
  have hcharged := hacc.attempts_charged (h st hst).streams hdone latency stream
  simpa [charged, Function.comp_def] using congrArg (List.map Prod.fst) hcharged

/-- Two attempts of 1000 estimated input tokens each. -/
theorem request_tokens_eq_sum_sample : ∃ st,
    attemptLoop noHost noHost (sampleExchange false) retriedAnswers samplePlan = some st ∧
      inputTokens (sampleExchange false) st sampleStreamEnd = (2000, [1000, 1000]) ∧
      (ledgerCalls (sampleExchange false) st 20 sampleStreamEnd).request.estimate.tokens =
        chargedTokens (ledgerCalls (sampleExchange false) st 20 sampleStreamEnd).attempts := by
  obtain ⟨st, hloop, -, hsum⟩ := request_tokens_eq_sum noHost noHost (sampleExchange false)
    retriedAnswers _ 20 _ fun st _ => by
      refine ⟨fun _ _ _ _ _ => .inl ?_, fun _ _ _ _ _ herror => ?_,
        nofun⟩ <;> cases hn : st.iteration
      · exact exists_preflight_sample ..
      · exact exists_preflight_sample ..
      · rw [hn] at herror
        cases herror
        nofun
      · rw [hn] at herror
        cases herror
  have htokens : (attemptLoop noHost noHost (sampleExchange false) retriedAnswers samplePlan).map
      (fun st => inputTokens (sampleExchange false) st sampleStreamEnd) =
        some (2000, [1000, 1000]) := by
    decide
  rw [hloop] at htokens
  exact ⟨st, hloop, Option.some.inj htokens, hsum⟩

/-- One attempt is sent and the next fails a check: the request is charged for two. A rejected
tool call is finalized with the usage it reported, the request with the estimate. -/
theorem request_tokens_diverge :
    (attemptLoop noHost noHost (sampleExchange false) exhaustedAnswers samplePlan).map
        (fun st => inputTokens (sampleExchange false) st sampleStreamEnd) =
      some (2000, [1000]) ∧
    (attemptLoop noHost noHost (sampleExchange false) rejectedAnswers (samplePlan.take 1)).map
        (fun st => inputTokens (sampleExchange false) st sampleStreamEnd) =
      some (1000, [300]) := by
  decide

end RouteSmith.Model
