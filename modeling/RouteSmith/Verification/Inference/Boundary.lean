import RouteSmith.Model.Egress
import RouteSmith.Verification.Inference.Steps

/-! # The local boundary

A request in `local_strict` mode, or of a project without cloud routing, is planned over local
providers only. The credential chosen at send time may name a base URL of its own, so whether
every send stays local rests on the credentials.
-/

namespace RouteSmith.Model

open Control ProviderBoundary

variable {env urlHost : String → Option String} {exchange : ExchangeRequest}

/-! ## Plans -/

theorem forResolved_congr {r t : ResolvedProvider} (hid : r.providerId = t.providerId)
    (hurl : r.provider.baseUrl = t.provider.baseUrl) :
    forResolved urlHost r = forResolved urlHost t := by
  simp [forResolved, hid, hurl]

theorem ProviderBoundary.eq_local_iff (b : ProviderBoundary) : b = .local ↔ b ≠ .cloud := by
  cases b <;> simp

variable {p resolved : ResolvedProvider} {authorized : List ResolvedProvider}
  {io : InferenceSurroundings}

variable {policy : ProjectPolicy} {first sent : ResolvedProvider} {control : ControlInner} {now : ℕ}
  {answers : ℕ → Surroundings} {st : LoopState}

theorem enforceAttempt_local (hcloud : policy.cloudEnabled = false)
    (h : policy.enforceAttempt urlHost resolved = .ok ()) :
    forResolved urlHost resolved = .local := by
  rw [eq_local_iff]
  intro hb
  simp only [ProjectPolicy.enforceAttempt, if_pos (And.intro hb hcloud)] at h
  cases h

/-- The mode is `local_strict`, or the project has no cloud routing. -/
def LocalOnly (policy : ProjectPolicy) (mode : HybridMode) : Prop :=
  mode = .localStrict ∨ policy.cloudEnabled = false

theorem authorizeAttempts_local {mode : HybridMode} {plan : List ResolvedProvider}
    (hlocal : LocalOnly policy mode)
    (h : authorizeAttempts urlHost policy mode plan = .ok (first, authorized)) :
    first ∈ authorized ∧ ∀ a ∈ authorized, forResolved urlHost a = .local := by
  rw [authorizeAttempts] at h
  split at h
  · next head rest hfilter =>
    cases h
    refine ⟨List.mem_cons_self, fun a ha => ?_⟩
    rw [← hfilter, List.mem_filter] at ha
    rcases hlocal with rfl | hcloud
    · simpa using And.right (by simpa [orderAttempts] using ha.1)
    · refine enforceAttempt_local hcloud ?_
      cases hok : policy.enforceAttempt urlHost a with
      | ok => rfl
      | error => simp [hok, Except.toBool] at ha
  · cases h

theorem authorizedAttempts_local
    (hlocal : ∀ mode, io.policy.effectiveMode io.requestedMode io.classification = .ok mode →
      LocalOnly io.policy mode) (h : authorizedAttempts urlHost io = .ok (first, authorized)) :
    first ∈ authorized ∧ ∀ a ∈ authorized, forResolved urlHost a = .local := by
  simp only [authorizedAttempts, bind_eq_ok_iff] at h
  obtain ⟨mode, hmode, _, -, _, hauthorized, -, -, hpure⟩ := h
  cases hpure
  exact authorizeAttempts_local (hlocal mode hmode) hauthorized

/-! ## Credentials -/

/-- The credential selected for a provider names no base URL, or a local one. -/
def CredentialStaysLocal (env urlHost : String → Option String) (control : ControlInner) (now : ℕ)
    (resolved : ResolvedProvider) : Prop :=
  ∀ record url, (control.selectProviderCredential env resolved.providerId now).1 = some record →
    record.baseUrl = some url →
    ProviderBoundary.forResolved urlHost
      { resolved with provider := { resolved.provider with baseUrl := url } } = .local

theorem sent_local_iff (hlocal : forResolved urlHost resolved = .local)
    (h : Equipped env control now resolved sent) :
    forResolved urlHost sent = .local ↔
      CredentialStaysLocal env urlHost control now resolved := by
  obtain ⟨hid, _, happly⟩ := h
  simp only [ControlInner.applySelectedProviderCredentialForRequest] at happly
  unfold CredentialStaysLocal
  cases hselect : (control.selectProviderCredential env resolved.providerId now).1 with
  | none =>
    simp only [hselect] at happly
    split_ifs at happly
    simp only [Except.ok.injEq, Prod.mk.injEq] at happly
    rw [forResolved_congr hid (congrArg ProviderConfig.baseUrl happly.2.symm)]
    simp [hlocal]
  | some record =>
    simp only [hselect, Except.ok.injEq, Prod.mk.injEq] at happly
    have hurl : sent.provider.baseUrl = record.baseUrl.getD resolved.provider.baseUrl := by
      rw [← happly.2]
      rfl
    cases hrecord : record.baseUrl with
    | none =>
      rw [forResolved_congr hid (by simp [hurl, hrecord]), iff_true_left hlocal]
      rintro _ _ ⟨⟩ hurl'
      cases hrecord.symm.trans hurl'
    | some url =>
      rw [forResolved_congr
        (t := { resolved with provider := { resolved.provider with baseUrl := url } }) hid
        (by simp [hurl, hrecord])]
      refine ⟨?_, fun h => h _ url rfl hrecord⟩
      rintro h _ _ ⟨⟩ hurl'
      cases hrecord.symm.trans hurl'
      exact h

/-! ## Sends -/

theorem withSelectedCredential_ok (h : withSelectedCredential env control now resolved = .ok sent) :
    Equipped env control now resolved sent := by
  rw [withSelectedCredential] at h
  cases happly : control.applySelectedProviderCredentialForRequest env resolved.providerId
      resolved.provider now with
  | error error => simp [happly, Except.map] at h
  | ok applied =>
    rw [happly] at h
    cases h
    exact ⟨rfl, applied.1, happly⟩

theorem contextCounting_some {io : CountingSurroundings} {counting : ResolvedProvider}
    {contextTokens : Numeric.U64}
    (h : contextCounting env exchange io resolved = .ok (some (contextTokens, counting))) :
    Equipped env io.control io.now resolved counting := by
  simp only [contextCounting, bind_eq_ok_iff] at h
  obtain ⟨-, -, h⟩ := h
  split at h
  · cases h
  · split_ifs at h
    · cases h
    · simp only [bind_eq_ok_iff] at h
      obtain ⟨_, hcounting, -, -, hpure⟩ := h
      cases hpure
      exact withSelectedCredential_ok hcounting

theorem mem_contextSends_iff {io : CountingSurroundings} :
    p ∈ (enforceContextAdmission env exchange io resolved).2 ↔
      ∃ contextTokens, contextCounting env exchange io resolved =
        .ok (some (contextTokens, p)) := by
  rw [enforceContextAdmission]
  split
  · next h => simp [h]
  · next h => simp [h]
  · next contextTokens counting h => simp [h, eq_comm]

theorem mem_sending_iff {sent : SentAttempt} : sent ∈ st.sending env urlHost exchange answers ↔
      ∃ attempt repair rest, st.attempts = (attempt, repair) :: rest ∧
        preflight env urlHost exchange (answers st.iteration) attempt repair = .admitted sent := by
  rw [LoopState.sending]
  split
  · next h => simp [h]
  · next attempt repair rest h =>
    cases hpre : preflight env urlHost exchange (answers st.iteration) attempt repair with
    | admitted =>
      rw [List.mem_singleton]
      constructor
      · rintro rfl
        exact ⟨attempt, repair, rest, h, hpre⟩
      · rintro ⟨_, _, _, h', hpre'⟩
        cases h.symm.trans h'
        cases hpre.symm.trans hpre'
        rfl
    | _ =>
      refine iff_of_false List.not_mem_nil ?_
      rintro ⟨_, _, _, h', hpre'⟩
      cases h.symm.trans h'
      cases hpre.symm.trans hpre'

theorem queue_local (hlocal : ∀ a ∈ authorized, forResolved urlHost a = .local)
    (h : Enters (attemptBody env urlHost exchange answers) (.initial exchange authorized) st) :
    ∀ q ∈ st.attempts, forResolved urlHost q.1 = .local := by
  refine h.invariant (I := fun st => ∀ q ∈ st.attempts,
    forResolved _ q.1 = .local) ?_ fun t u _ ht hnext => ?_
  · simpa [LoopState.initial] using hlocal
  · obtain ⟨_, _, _, hqueue, hcases⟩ := attemptBody_next hnext
    rw [hqueue, List.forall_mem_cons] at ht
    rcases hcases with ⟨-, -, _, -, rfl⟩ | ⟨_, _, -, -, ⟨-, rfl⟩ | ⟨-, rfl⟩⟩
    · exact ht.2
    · exact List.forall_mem_cons.mpr ht
    · exact ht.2

/-- Whenever a request is about to be sent, for counting its tokens or as an attempt, the
credential selected at that moment stays local. -/
structure CredentialsStayLocal (env urlHost : String → Option String) (exchange : ExchangeRequest)
    (io : InferenceSurroundings) : Prop where
  counting : ∀ resolved authorized contextTokens counting,
    authorizedAttempts urlHost io = .ok (resolved, authorized) →
    contextCounting env exchange io.counting resolved = .ok (some (contextTokens, counting)) →
    CredentialStaysLocal env urlHost io.counting.control io.counting.now resolved
  attempts : ∀ resolved authorized, authorizedAttempts urlHost io = .ok (resolved, authorized) →
    admitInference env exchange io resolved = .ok () →
    ∀ st, Enters (attemptBody env urlHost exchange io.answers) (.initial exchange authorized) st →
      ∀ attempt repair rest sent, st.attempts = (attempt, repair) :: rest →
        preflight env urlHost exchange (io.answers st.iteration) attempt repair = .admitted sent →
        CredentialStaysLocal env urlHost (io.answers st.iteration).control
          (io.answers st.iteration).now attempt

theorem mem_inferenceSends_iff (h : authorizedAttempts urlHost io = .ok (resolved, authorized)) :
    p ∈ inferenceSends env urlHost exchange io ↔
      (∃ contextTokens, contextCounting env exchange io.counting resolved =
          .ok (some (contextTokens, p))) ∨
        (admitInference env exchange io resolved = .ok () ∧
          ∃ st, Enters (attemptBody env urlHost exchange io.answers)
              (.initial exchange authorized) st ∧
            ∃ sent ∈ st.sending env urlHost exchange io.answers, sent.resolved = p) := by
  simp only [inferenceSends, h, List.mem_append, mem_contextSends_iff]
  refine or_congr_right ?_
  cases admitInference env exchange io resolved with
  | error => simp
  | ok =>
    obtain ⟨_, hst⟩ := exists_attemptLoop env urlHost exchange io.answers authorized
    simp only [hst, List.mem_map, mem_sent_iff hst, true_and]
    constructor
    · rintro ⟨sent, ⟨t, ht, hsent⟩, rfl⟩
      exact ⟨t, ht, sent, hsent, rfl⟩
    · rintro ⟨t, ht, sent, hsent, rfl⟩
      exact ⟨sent, ⟨t, ht, hsent⟩, rfl⟩

/-- A request whose attempts are all local is sent within the boundary exactly if the
credentials selected for its sends stay there. -/
theorem inferenceSends_local_iff
    (hlocal : ∀ mode, io.policy.effectiveMode io.requestedMode io.classification = .ok mode →
      LocalOnly io.policy mode) : (∀ p ∈ inferenceSends env urlHost exchange io,
        forResolved urlHost p = .local) ↔
      CredentialsStayLocal env urlHost exchange io := by
  cases hauth : authorizedAttempts urlHost io with
  | error =>
    refine iff_of_true (by simp [inferenceSends, hauth]) ⟨?_, ?_⟩ <;> intros <;> simp_all
  | ok result =>
    obtain ⟨_, _⟩ := result
    obtain ⟨hmem, hauthorized⟩ := authorizedAttempts_local hlocal hauth
    simp only [mem_inferenceSends_iff hauth]
    constructor
    · intro h
      refine ⟨fun r a contextTokens _ hra hcounting => ?_,
        fun r a hra hready st hst attempt repair rest sent hqueue hpre => ?_⟩
      · cases hauth.symm.trans hra
        exact (sent_local_iff (hauthorized _ hmem) (contextCounting_some hcounting)).mp
          (h _ (.inl ⟨contextTokens, hcounting⟩))
      · cases hauth.symm.trans hra
        have hsent := (preflight_admitted hpre).2
        have hattempt := queue_local hauthorized hst (attempt, repair) (by simp [hqueue])
        exact (sent_local_iff hattempt hsent).mp (h _ (.inr ⟨hready, st, hst, sent,
          mem_sending_iff.mpr ⟨attempt, repair, rest, hqueue, hpre⟩, rfl⟩))
    · rintro h p (⟨_, hcounting⟩ | ⟨hready, st, hst, sent, hsent, rfl⟩)
      · exact (sent_local_iff (hauthorized _ hmem) (contextCounting_some hcounting)).mpr
          (h.counting _ _ _ p hauth hcounting)
      · obtain ⟨attempt, repair, rest, hqueue, hpre⟩ := mem_sending_iff.mp hsent
        have hsent := (preflight_admitted hpre).2
        have hattempt := queue_local hauthorized hst (attempt, repair) (by simp [hqueue])
        exact (sent_local_iff hattempt hsent).mpr
          (h.attempts _ _ hauth hready st hst _ _ rest sent hqueue hpre)

theorem countTokens_ok {io : CountTokensSurroundings}
    (hlocal : ∀ mode, io.policy.effectiveMode io.requestedMode io.classification = .ok mode →
      LocalOnly io.policy mode) (h : countTokens env urlHost io = .ok p) :
    ∃ resolved, io.resolved = .ok resolved ∧ forResolved urlHost resolved = .local ∧
      Equipped env io.control io.now resolved p := by
  simp only [countTokens, bind_eq_ok_iff] at h
  obtain ⟨resolved, hresolved, mode, hmode, _, henforce, h⟩ := h
  split_ifs at h with hstrict
  · cases h
  · cases h
  · cases h
  · simp only [bind_eq_ok_iff] at h
    obtain ⟨_, -, _, -, _, -, _, hsent, _, -, _, -, hpure⟩ := h
    cases hpure
    refine ⟨resolved, hresolved, ?_, withSelectedCredential_ok hsent⟩
    rcases hlocal mode hmode with hmode | hcloud
    · exact (eq_local_iff _).mpr fun hb => hstrict ⟨hmode, hb⟩
    · exact enforceAttempt_local hcloud henforce

/-- In `local_strict` mode, whether requested or forced by the classification, and in a project
without cloud routing, every provider a request is sent to is local with the very base URL used,
for an inference request and for a token count, exactly if each credential selected for a send
names no base URL or a local one. -/
theorem localStrict_sends_local_iff (env urlHost : String → Option String)
    (exchange : ExchangeRequest) (io : InferenceSurroundings) (counting : CountTokensSurroundings)
    (hinference : ∀ mode, io.policy.effectiveMode io.requestedMode io.classification = .ok mode →
        LocalOnly io.policy mode)
    (hcounting : ∀ mode,
      counting.policy.effectiveMode counting.requestedMode counting.classification = .ok mode →
        LocalOnly counting.policy mode) :
    ((∀ p ∈ inferenceSends env urlHost exchange io,
        ProviderBoundary.forResolved urlHost p = .local) ↔
      CredentialsStayLocal env urlHost exchange io) ∧
    ((∀ p, countTokens env urlHost counting = .ok p →
        ProviderBoundary.forResolved urlHost p = .local) ↔
      ∀ p resolved, countTokens env urlHost counting = .ok p → counting.resolved = .ok resolved →
        CredentialStaysLocal env urlHost counting.control counting.now resolved) := by
  refine ⟨inferenceSends_local_iff hinference, fun h p resolved hp hresolved => ?_,
    fun h p hp => ?_⟩
  · obtain ⟨_, hresolved', hlocal, hsent⟩ := countTokens_ok hcounting hp
    cases hresolved.symm.trans hresolved'
    exact (sent_local_iff hlocal hsent).mp (h p hp)
  · obtain ⟨_, hresolved, hlocal, hsent⟩ := countTokens_ok hcounting hp
    exact (sent_local_iff hlocal hsent).mpr (h p _ hp hresolved)

/-! ## A credential with a base URL -/

/-- Reads the host of `http` and `https` URLs without a port. -/
def sampleUrlHost (url : String) : Option String :=
  match url with
  | "http://127.0.0.1/v1" => some "127.0.0.1"
  | "https://api.example.com/v1" => some "api.example.com"
  | _ => none

def sampleEnv : String → Option String := fun _ => some "secret"

def sampleLocal : ResolvedProvider :=
  ⟨"workstation", { protocol := .openaiCompat, baseUrl := "http://127.0.0.1/v1",
                    defaultModel := "qwen", tokenCounting := { mode := .anthropic } }, "qwen"⟩

/-- A pool of one credential for the provider. -/
def sampleControl (baseUrl : Option String) : ControlInner where
  providerCredentials :=
    .singleton "workstation" (.singleton "cred" ⟨"cred", "WORKSTATION_KEY", baseUrl, "active"⟩)

/-- A sensitive request of a project that would allow the cloud. -/
def sampleInference (baseUrl : Option String) : InferenceSurroundings where
  policy := { maximumMode := .cloudFirst, cloudEnabled := true }
  classification := .sensitive
  requestedMode := none
  plan := .ok [sampleLocal]
  checkRateLimit := .ok ()
  counting := ⟨sampleControl baseUrl, 0, .ok (), .ok 0⟩
  streamPermit := .ok ()
  beginRequest := .ok ()
  answers := fun _ =>
    { sampleSurroundings "att_0" (.ok ⟨200, none⟩) with control := sampleControl baseUrl }

def sampleCount (baseUrl : Option String) : CountTokensSurroundings where
  policy := { maximumMode := .cloudFirst, cloudEnabled := true }
  classification := .sensitive
  requestedMode := none
  resolved := .ok sampleLocal
  checkRateLimit := .ok ()
  checkQuotas := .ok ()
  checkUsagePolicy := .ok ()
  control := sampleControl baseUrl
  now := 0
  validateProvider := .ok ()
  checkProviderAttempt := .ok ()

/-- Without a base URL of its own, the credential keeps the request on the local provider. -/
theorem localStrict_sends_local_iff_sample :
    (inferenceSends sampleEnv sampleUrlHost (sampleExchange false) (sampleInference none)).map
        (·.provider.baseUrl) = ["http://127.0.0.1/v1"] ∧
      CredentialsStayLocal sampleEnv sampleUrlHost (sampleExchange false) (sampleInference none) ∧
      CredentialStaysLocal sampleEnv sampleUrlHost (sampleControl none) 0 sampleLocal := by
  have hmode : ∀ mode, (sampleInference none).policy.effectiveMode none .sensitive = .ok mode →
      LocalOnly (sampleInference none).policy mode := by
    intro _ hmode
    cases hmode
    exact .inl rfl
  have hsends : ∀ p ∈ inferenceSends sampleEnv sampleUrlHost (sampleExchange false)
      (sampleInference none), forResolved sampleUrlHost p = .local := by
    decide
  have hcount : ((countTokens sampleEnv sampleUrlHost (sampleCount none)).map
      fun p => forResolved sampleUrlHost p) = .ok .local := by
    decide
  obtain ⟨hinference, hcounting⟩ := localStrict_sends_local_iff _ _
    (sampleExchange false) _ (sampleCount none) hmode hmode
  refine ⟨by decide, hinference.mp hsends, ?_⟩
  cases hp : countTokens sampleEnv sampleUrlHost (sampleCount none) with
  | error => simp [hp, Except.map] at hcount
  | ok p =>
    refine hcounting.mp (fun _ hp' => ?_) p _ hp rfl
    simpa [hp', Except.map] using hcount

/-- The credential's own base URL takes a sensitive request, and its token count, to the cloud. -/
theorem localStrict_credential_leaves_boundary :
    ProjectPolicy.effectiveMode (sampleInference none).policy none .sensitive = .ok .localStrict ∧
    (inferenceSends sampleEnv sampleUrlHost (sampleExchange false)
        (sampleInference (some "https://api.example.com/v1"))).map
      (fun p => (p.provider.baseUrl, ProviderBoundary.forResolved sampleUrlHost p)) =
        [("https://api.example.com/v1", .cloud)] ∧
    ((countTokens sampleEnv sampleUrlHost (sampleCount (some "https://api.example.com/v1"))).map
      fun p => ProviderBoundary.forResolved sampleUrlHost p) = .ok .cloud := by
  decide

end RouteSmith.Model
