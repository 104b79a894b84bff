import RouteSmith.Verification.Control.KeySteps

/-! # API keys over whole runs

The index holds the hashes of the keys, a key is accepted only while it is active, and the limits
of a service account hold as long as no update lifts them.
-/

namespace RouteSmith.Model

open Control Store Text Option

/-! ## The index -/

/-- The index leads from the hash of each key to a key with that hash, and nowhere else. -/
structure Indexes (index : NameMap String) (apiKeys : NameMap ApiKeyRecord) : Prop where
  sound : ∀ hash id, index.lookup hash = some id →
    ∃ record, apiKeys.lookup id = some record ∧ record.keyHash = hash
  complete : ∀ id record, apiKeys.lookup id = some record → record.keyHash ∈ index

theorem hashIndex_indexes (apiKeys : NameMap ApiKeyRecord) :
    Indexes (hashIndex apiKeys) apiKeys where
  sound hash id h := by
    obtain ⟨⟨_, record⟩, hmem, heq⟩ := NameMap.exists_of_lookup_collect h
    cases heq
    exact ⟨record, NameMap.mem_ordered.mp hmem, rfl⟩
  complete id record h :=
    NameMap.mem_collect.mpr ⟨(id, record), NameMap.mem_ordered.mpr h, rfl⟩

variable {index : NameMap String} {apiKeys : NameMap ApiKeyRecord}

theorem Indexes.exact (h : Indexes index apiKeys) (hash : String) :
    hash ∈ index ↔ ∃ id record, apiKeys.lookup id = some record ∧ record.keyHash = hash := by
  constructor
  · intro hmem
    obtain ⟨id, hid⟩ := NameMap.mem_iff_exists_lookup.mp hmem
    exact ⟨id, h.sound hash id hid⟩
  · rintro ⟨id, _, hrecord, rfl⟩
    exact h.complete id _ hrecord

variable {changed record : ApiKeyRecord}

theorem Indexes.insert (h : Indexes index apiKeys) {id : String}
    (hrecord : apiKeys.lookup id = some record) (hhash : changed.keyHash = record.keyHash) :
    Indexes index (apiKeys.insert id changed) where
  sound hash id' hid := by
    obtain ⟨record', hrecord', hhash'⟩ := h.sound hash id' hid
    by_cases heq : id' = id
    · subst heq
      rw [hrecord] at hrecord'
      cases hrecord'
      exact ⟨changed, AList.lookup_insert _, hhash.trans hhash'⟩
    · exact ⟨record', by rw [AList.lookup_insert_ne heq, hrecord'], hhash'⟩
  complete := NameMap.Each.insert h.complete (hhash ▸ h.complete id _ hrecord)

namespace ControlTables

variable {sha256 : String → String} {s t : ControlTables} {a : ControlAction}

/-- The keys are kept under their ids, and the index is theirs. -/
structure InOrder (s : ControlTables) : Prop where
  keyed : Keyed s.apiKeys
  indexes : Indexes s.apiKeyHashIndex s.apiKeys

theorem load_inOrder (file : ControlFile) : (load file).InOrder where
  keyed := .collect fun _ _ => rfl
  indexes := hashIndex_indexes _

theorem KeyChange.keyed {keys changed : NameMap ApiKeyRecord} (h : KeyChange keys a changed)
    (hkeyed : Keyed keys) : Keyed changed := by
  cases h with
  | kept => exact hkeyed
  | mapped _ hchange =>
    exact .mapValues hkeyed fun id _ => (hchange _).id.trans
  | replaced hrecord hsame | revised _ hrecord hsame =>
    exact .insert hkeyed (hsame.id.trans (hkeyed _ _ hrecord))
  | created => exact .insert hkeyed rfl
  | erased id => exact .erase hkeyed id

theorem KeyStep.inOrder (h : KeyStep s a t) (hs : s.InOrder) : t.InOrder := by
  cases h with
  | still hkeys hindex =>
    constructor
    · rw [hkeys]
      exact hs.keyed
    · rw [hkeys, hindex]
      exact hs.indexes
  | used hrecord hkeys hindex =>
    constructor
    · have hid := hs.keyed _ _ hrecord
      rw [hkeys]
      exact .insert hs.keyed hid
    · rw [hkeys, hindex]
      exact hs.indexes.insert hrecord rfl
  | saved hchange hindex =>
    refine ⟨hchange.keyed hs.keyed, ?_⟩
    rw [hindex]
    exact hashIndex_indexes _

theorem step_inOrder (hs : s.InOrder) (a : ControlAction × Except AppError Unit) :
    (s.step sha256 a).InOrder :=
  (step_keyStep _ hs.keyed _ _).inOrder hs

/-! ## Authentication -/

/-- What a key must be to be accepted at an instant. -/
structure Accepts (s : ControlTables) (record : ApiKeyRecord) (now : ℕ) : Prop where
  active : record.status = "active"
  unexpired : ∀ expires ∈ record.expiresAtMs, now < expires
  team : ∀ teamId ∈ record.teamId,
    ∃ team, s.teams.lookup teamId = some team ∧ team.status = "active"

theorem authenticateHeaders_accepts {headers : String → Option String} {now : ℕ}
    {saved : Except AppError Unit} {identity : ClientIdentity}
    (h : (s.authenticateHeaders sha256 headers now saved).1 = .ok (some identity)) :
    ∃ token id record, clientToken headers = some token ∧
      s.apiKeyHashIndex.lookup (sha256 token) = some id ∧ s.apiKeys.lookup id = some record ∧
      identity = record.identity (record.teamId.bind s.teams.lookup) ∧ s.Accepts record now := by
  rw [authenticateHeaders] at h
  split at h
  · cases h
  rename_i token htoken
  dsimp only at h
  split at h
  · cases h
  rename_i id hid
  split at h
  · cases h
  rename_i record hrecord
  split_ifs at h with hactive hexpired hteam
  · cases saved with
    | ok | error => cases h
  · refine ⟨token, id, record, htoken, hid, hrecord, ?_, ?_, ?_, ?_⟩
    · exact (some.inj (Except.ok.inj h)).symm
    · simpa using hactive
    · intro _ hexpires
      simpa [mem_def.mp hexpires] using hexpired
    · intro _ hteamId
      rw [mem_def.mp hteamId] at hteam
      simp only [isSome_some, true_and, all_eq_true_iff_get, not_forall] at hteam
      obtain ⟨hsome, hstatus⟩ := hteam
      exact ⟨_, some_get hsome |>.symm, by simpa using hstatus⟩

/-- However the operations and the answers of the store follow each other, the index holds exactly
the hashes of the keys, and a request is identified by a key only if its token has the key's hash
and the key is active, unexpired and in an active team if in one. -/
theorem api_key_index_exact (sha256 : String → String) (file : ControlFile)
    (actions : List (ControlAction × Except AppError Unit)) :
    let s := runs (step sha256) (load file) actions
    (∀ hash, hash ∈ s.apiKeyHashIndex ↔
      ∃ id record, s.apiKeys.lookup id = some record ∧ record.keyHash = hash) ∧
    ∀ headers now saved identity,
      (s.authenticateHeaders sha256 headers now saved).1 = .ok (some identity) →
      ∃ token id record, clientToken headers = some token ∧ identity.apiKeyId = some id ∧
        s.apiKeys.lookup id = some record ∧ sha256 token = record.keyHash ∧
        s.Accepts record now := by
  intro s
  have hs : s.InOrder := runs_invariant (fun _ _ h => step_inOrder h _) (load_inOrder file)
  refine ⟨hs.indexes.exact, ?_⟩
  intro _ _ _ _ h
  obtain ⟨token, id, record, htoken, hid, hrecord, rfl, haccepts⟩ := authenticateHeaders_accepts h
  obtain ⟨_, hindexed, hhash⟩ := hs.indexes.sound _ _ hid
  rw [hrecord] at hindexed
  cases hindexed
  refine ⟨token, id, record, htoken, ?_, hrecord, hhash.symm, haccepts⟩
  rw [ApiKeyRecord.identity, hs.keyed id _ hrecord]

/-- A service account for one model of one provider until the end of the first day. -/
def nightlyAccount : CreateApiKeyInput where
  userId := "usr_1"
  name := "nightly"
  principalType := some "service_account"
  purpose := some "nightly report"
  allowedModels := some ["gpt"]
  allowedProviders := some ["openai"]
  expiresAt := some "86400000"

/-- The account is found by the key that was drawn for it. -/
theorem nightly_account_accepted :
    let actions : List (ControlAction × Except AppError Unit) :=
      [(.createApiKey nightlyAccount 0 "1" "00", .ok ())]
    let s := runs (step id) (load {}) actions
    let headers : String → Option String := fun name =>
      if name = "x-api-key" then some "sk-mp-00" else none
    ∃ identity, (s.authenticateHeaders id headers 1 (.ok ())).1 = .ok (some identity) ∧
      ∃ token id record, clientToken headers = some token ∧ identity.apiKeyId = some id ∧
        s.apiKeys.lookup id = some record ∧ token = record.keyHash ∧ s.Accepts record 1 := by
  intro _ s headers
  have hanswer : ((s.authenticateHeaders id headers 1 (.ok ())).1.toOption.join).isSome := by
    decide
  obtain ⟨identity, hidentity⟩ := isSome_iff_exists.mp hanswer
  have hok : (s.authenticateHeaders id headers 1 (.ok ())).1 = .ok (some identity) := by
    cases hresult : (s.authenticateHeaders id headers 1 (.ok ())).1 with
    | error => simp [hresult, Except.toOption] at hidentity
    | ok => simpa [hresult, Except.toOption] using hidentity
  exact ⟨identity, hok, (api_key_index_exact id {} _).2 headers 1 (.ok ()) _ hok⟩

end ControlTables

/-! ## Service accounts -/

/-- What is promised of a service account: it expires within 90 days of its creation, its models
and providers are named, and it has a purpose. -/
structure Limited (record : ApiKeyRecord) : Prop where
  expires : ∃ expires ∈ record.expiresAtMs, expires ≤ record.createdAtMs + maxServiceAccountTtlMs
  models : record.allowedModels ≠ []
  providers : record.allowedProviders ≠ []
  purpose : ∃ purpose ∈ record.purpose, isEmpty (trim purpose) = false

def ServiceAccountLimited (record : ApiKeyRecord) : Prop :=
  record.principalType = "service_account" → Limited record

theorem Created.limited (h : Created record) : ServiceAccountLimited record := by
  intro hservice
  have hvalid := h.serviceAccount hservice
  rw [validateServiceAccount.eq_def] at hvalid
  split at hvalid
  · cases hvalid
  rename_i expires hexpires
  simp only [bind_eq_ok_iff, refuseIf_eq_ok] at hvalid
  obtain ⟨-, httl, -, hscopes, hpurpose⟩ := hvalid
  simp only [Bool.or_eq_true, List.isEmpty_iff, not_or] at hscopes
  refine ⟨⟨expires, hexpires, by omega⟩, hscopes.1, hscopes.2, ?_⟩
  cases hgiven : record.purpose with
  | none => simp [hgiven] at hpurpose
  | some purpose => exact ⟨purpose, rfl, h.purpose purpose hgiven⟩

theorem SameGrant.limited (h : SameGrant record changed) (hlimited : ServiceAccountLimited record) :
    ServiceAccountLimited changed := by
  intro hservice
  rw [h.principalType] at hservice
  have hrecord := hlimited hservice
  refine ⟨?_, ?_, ?_, ?_⟩
  · rw [h.expiresAtMs, h.createdAtMs]
    exact hrecord.expires
  · rw [h.allowedModels]
    exact hrecord.models
  · rw [h.allowedProviders]
    exact hrecord.providers
  · rw [h.purpose]
    exact hrecord.purpose

theorem collectRules_ne_nil {check : String → Except AppError Unit}
    {output values result : List String}
    (h : collectRules check output values = .ok result)
    (hfull : output ≠ [] ∨ ∃ value ∈ values, isEmpty (trim value) = false) : result ≠ [] := by
  induction values generalizing output with
  | nil =>
    obtain rfl := pure_eq_ok.mp h
    simpa using hfull
  | cons value _ ih =>
    rw [collectRules] at h
    by_cases hblank : isEmpty (trim value) = true
    · rw [if_pos hblank] at h
      refine ih h (hfull.imp_right ?_)
      rintro ⟨v, hv, hv'⟩
      rcases List.mem_cons.mp hv with rfl | hv
      · rw [hblank] at hv'
        cases hv'
      · exact ⟨v, hv, hv'⟩
    · rw [if_neg hblank, bind_eq_ok_iff] at h
      obtain ⟨_, -, h⟩ := h
      refine ih h (.inl ?_)
      split_ifs with hmem
      · exact List.ne_nil_of_mem hmem
      · simp

/-- An update that does not lift the limits of a service account: the lists that it gives name
something, and the expiry that it gives is within 90 days of the creation. -/
structure KeepsLimits (input : UpdateApiKeyInput) (record : ApiKeyRecord) : Prop where
  models : ∀ values ∈ input.allowedModels, ∃ value ∈ values, isEmpty (trim value) = false
  providers : ∀ values ∈ input.allowedProviders, ∃ value ∈ values, isEmpty (trim value) = false
  expires : ∀ value ∈ input.expiresAt, isEmpty (trim value) = false ∧
    ∀ expires ∈ parseU64 (trim value), expires ≤ record.createdAtMs + maxServiceAccountTtlMs

theorem Revised.limited {input : UpdateApiKeyInput} (h : Revised record input changed)
    (hkeeps : record.principalType = "service_account" → KeepsLimits input record)
    (hlimited : ServiceAccountLimited record) : ServiceAccountLimited changed := by
  intro hservice
  rw [h.principalType] at hservice
  have hrecord := hlimited hservice
  have hinput := hkeeps hservice
  have hlist : ∀ {given} {current result : List String},
      revise given current normalizePolicyList = .ok result → current ≠ [] →
      (∀ values ∈ given, ∃ value ∈ values, isEmpty (trim value) = false) → result ≠ [] := by
    intro given _ _ hresult hcurrent hgiven
    cases given with
    | none =>
      obtain rfl := pure_eq_ok.mp hresult
      exact hcurrent
    | some values => exact collectRules_ne_nil hresult (.inr (hgiven values rfl))
  refine ⟨?_, hlist h.allowedModels hrecord.models hinput.models,
    hlist h.allowedProviders hrecord.providers hinput.providers, ?_⟩
  · have hexpires := h.expiresAtMs
    rw [h.createdAtMs]
    cases hgiven : input.expiresAt with
    | none =>
      rw [hgiven] at hexpires
      rw [pure_eq_ok.mp hexpires]
      exact hrecord.expires
    | some value =>
      obtain ⟨hfull, hbound⟩ := hinput.expires _ hgiven
      rw [hgiven, revise, readExpiry, if_neg (by simp [hfull])] at hexpires
      split at hexpires
      · cases hexpires
      next expires hparse =>
        rw [pure_eq_ok.mp hexpires]
        exact ⟨expires, rfl, hbound _ hparse⟩
  · rw [h.purpose]
    exact hrecord.purpose

namespace ControlTables

variable {sha256 : String → String} {s t : ControlTables}

/-- An operation that is not an update which lifts the limits of a service account. -/
def LeavesLimits (s : ControlTables) (a : ControlAction × Except AppError Unit) : Prop :=
  ∀ keyId input now record, a.1 = .updateApiKey keyId input now →
    s.apiKeys.lookup keyId = some record → record.principalType = "service_account" →
    KeepsLimits input record

def AllLimited (s : ControlTables) : Prop :=
  s.apiKeys.Each fun _ record => ServiceAccountLimited record

theorem KeyStep.allLimited {a : ControlAction × Except AppError Unit} (h : KeyStep s a.1 t)
    (hleaves : s.LeavesLimits a) (hs : s.AllLimited) : t.AllLimited := by
  cases h with
  | still hkeys =>
    rw [AllLimited, hkeys]
    exact hs
  | used hrecord hkeys _ =>
    have hlimited := hs _ _ hrecord
    rw [AllLimited, hkeys]
    refine .insert hs (SameGrant.limited ?_ hlimited)
    exact ⟨rfl, rfl, rfl, rfl, rfl, rfl, rfl, rfl⟩
  | saved hchange _ =>
    rw [AllLimited]
    generalize t.apiKeys = keys at hchange
    cases hchange with
    | kept => exact hs
    | mapped _ hsame =>
      exact .mapValues hs fun _ _ => (hsame _).limited
    | replaced hrecord hsame => exact .insert hs (hsame.limited (hs _ _ hrecord))
    | revised ha hrecord hrevised =>
      exact .insert hs (hrevised.limited (hleaves _ _ _ _ ha hrecord) (hs _ _ hrecord))
    | created hcreated => exact .insert hs hcreated.limited
    | erased id => exact .erase hs id

/-- In every run in which no update lifts them, the limits of the service accounts hold. -/
theorem service_accounts_limited {file : ControlFile}
    {actions : List (ControlAction × Except AppError Unit)}
    (hfile : ∀ record ∈ file.apiKeys, ServiceAccountLimited record)
    (hmeets : Meets (step sha256) LeavesLimits (load file) actions) :
    (runs (step sha256) (load file) actions).AllLimited := by
  have hstart : (load file).InOrder ∧ (load file).AllLimited :=
    ⟨load_inOrder file, .collect hfile⟩
  refine (runs_invariant_of_meets (I := fun s => s.InOrder ∧ _) ?_ hmeets hstart).2
  intro s a hleaves hs
  have hstep := step_keyStep sha256 hs.1.keyed a.1 a.2
  exact ⟨hstep.inOrder hs.1, hstep.allLimited hleaves hs.2⟩

theorem nightly_account_limited :
    let actions : List (ControlAction × Except AppError Unit) :=
      [(.createApiKey nightlyAccount 0 "1" "00", .ok ()),
        (.updateApiKey "key_1" { allowedModels := some ["gpt", "o3"] } 1, .ok ()),
        (.revokeApiKey "key_1", .error (.stateConflict ""))]
    (∀ record ∈ ({} : ControlFile).apiKeys, ServiceAccountLimited record) ∧
      (runs (step id) (load {}) actions).AllLimited := by
  refine ⟨by simp, service_accounts_limited (by simp) ⟨?_, ?_, ?_, trivial⟩⟩
  · intro keyId input now record ha
    cases ha
  · intro _ _ _ _ ha _ _
    cases ha
    exact ⟨by decide, by simp, by simp⟩
  · intro _ _ _ _ ha
    cases ha

/-- An update without models is accepted: the account may then use every model. -/
theorem update_lifts_limits :
    let actions : List (ControlAction × Except AppError Unit) :=
      [(.createApiKey nightlyAccount 0 "1" "00", .ok ()),
        (.updateApiKey "key_1" { allowedModels := some [] } 1, .ok ())]
    ¬(runs (step id) (load {}) actions).AllLimited := by
  intro actions h
  have hupdated : ((runs (step id) (load {}) actions).apiKeys.lookup "key_1").map
      (fun record => (record.principalType, record.allowedModels)) =
        some ("service_account", []) := by
    decide
  obtain ⟨_, hrecord, hfields⟩ := map_eq_some_iff.mp hupdated
  obtain ⟨hservice, hmodels⟩ := Prod.mk.inj hfields
  exact (h "key_1" _ hrecord hservice).models hmodels

end ControlTables

end RouteSmith.Model
