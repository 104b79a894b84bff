import RouteSmith.Control.Runs
import RouteSmith.Model.ControlStore

/-! # What an operation does to the API keys

Every operation of the control store leaves the keys and their index alone, notes the use of a key,
or changes the keys in one of a few ways and rebuilds the index.
-/

namespace RouteSmith.Model

open Store Text

/-- Two records of one key that differ in nothing that its grant rests on. -/
structure SameGrant (record changed : ApiKeyRecord) : Prop where
  id : changed.id = record.id
  keyHash : changed.keyHash = record.keyHash
  principalType : changed.principalType = record.principalType
  purpose : changed.purpose = record.purpose
  createdAtMs : changed.createdAtMs = record.createdAtMs
  expiresAtMs : changed.expiresAtMs = record.expiresAtMs
  allowedModels : changed.allowedModels = record.allowedModels
  allowedProviders : changed.allowedProviders = record.allowedProviders

theorem SameGrant.setStatus (record : ApiKeyRecord) (status : String) :
    SameGrant record { record with status } :=
  ⟨rfl, rfl, rfl, rfl, rfl, rfl, rfl, rfl⟩

/-- What `update_api_key` makes of a record: the parts of its grant are kept or read from the
request. -/
structure Revised (record : ApiKeyRecord) (input : UpdateApiKeyInput) (changed : ApiKeyRecord) :
    Prop where
  id : changed.id = record.id
  keyHash : changed.keyHash = record.keyHash
  principalType : changed.principalType = record.principalType
  purpose : changed.purpose = record.purpose
  createdAtMs : changed.createdAtMs = record.createdAtMs
  expiresAtMs : revise input.expiresAt record.expiresAtMs readExpiry = .ok changed.expiresAtMs
  allowedModels :
    revise input.allowedModels record.allowedModels normalizePolicyList = .ok changed.allowedModels
  allowedProviders : revise input.allowedProviders record.allowedProviders normalizePolicyList =
    .ok changed.allowedProviders

/-- What `create_api_key` stores. -/
structure Created (record : ApiKeyRecord) : Prop where
  serviceAccount : record.principalType = "service_account" →
    validateServiceAccount record.expiresAtMs record.createdAtMs record.allowedModels
      record.allowedProviders record.purpose = .ok ()
  purpose : ∀ purpose ∈ record.purpose, isEmpty (trim purpose) = false

theorem readApiKey_created {sha256 : String → String} {input : CreateApiKeyInput} {now : ℕ}
    {uuid drawn : String} {record : ApiKeyRecord}
    (h : readApiKey sha256 input now uuid drawn = .ok record) : Created record := by
  simp only [readApiKey, bind_eq_ok_iff] at h
  obtain ⟨_, -, _, -, _, -, _, -, _, -, _, -, _, -, _, hservice, h⟩ := h
  obtain rfl := pure_eq_ok.mp h
  constructor
  · intro hprincipal
    rw [if_pos hprincipal] at hservice
    exact hservice
  · intro _ hpurpose
    obtain ⟨hpurpose, hfull⟩ := Option.filter_eq_some_iff.mp hpurpose
    obtain ⟨_, -, rfl⟩ := Option.map_eq_some_iff.mp hpurpose
    rw [isEmpty_trim_trim]
    simpa using hfull

/-- The keys are kept under their own ids. -/
def Keyed (apiKeys : NameMap ApiKeyRecord) : Prop := apiKeys.Each fun id record => record.id = id

namespace ControlTables

theorem reviseApiKey_revised {s : ControlTables} {record changed : ApiKeyRecord}
    {input : UpdateApiKeyInput} {now : ℕ}
    (h : s.reviseApiKey record input now = .ok changed) : Revised record input changed := by
  simp only [reviseApiKey, bind_eq_ok_iff] at h
  obtain ⟨_, -, _, -, ⟨_, _⟩, -, _, hmodels, _, hproviders, _,
    hexpires, _, -, _, -, _, -, _, -, _, -, _, -, _, -, _, -,
    h⟩ := h
  obtain rfl := pure_eq_ok.mp h
  exact ⟨rfl, rfl, rfl, rfl, rfl, hexpires, hmodels, hproviders⟩

/-- The keys after an operation that is saved. -/
inductive KeyChange (keys : NameMap ApiKeyRecord) (a : ControlAction) : NameMap ApiKeyRecord → Prop
  | kept : KeyChange keys a keys
  | mapped (change : ApiKeyRecord → ApiKeyRecord) (h : ∀ record, SameGrant record (change record)) :
    KeyChange keys a (keys.mapValues fun _ => change)
  | replaced {id : String} {record changed : ApiKeyRecord} (hrecord : keys.lookup id = some record)
    (h : SameGrant record changed) : KeyChange keys a (keys.insert id changed)
  | revised {id : String} {input : UpdateApiKeyInput} {now : ℕ} {record changed : ApiKeyRecord}
    (ha : a = .updateApiKey id input now) (hrecord : keys.lookup id = some record)
    (h : Revised record input changed) : KeyChange keys a (keys.insert id changed)
  | created {record : ApiKeyRecord} (h : Created record) :
    KeyChange keys a (keys.insert record.id record)
  | erased (id : String) : KeyChange keys a (keys.erase id)

/-- The keys and their index after an operation. -/
inductive KeyStep (s : ControlTables) (a : ControlAction) (t : ControlTables) : Prop
  | still (hkeys : t.apiKeys = s.apiKeys) (hindex : t.apiKeyHashIndex = s.apiKeyHashIndex)
  | used {id : String} {record : ApiKeyRecord} {now : ℕ}
    (hrecord : s.apiKeys.lookup id = some record)
    (hkeys : t.apiKeys = s.apiKeys.insert id { record with lastUsedAtMs := some now })
    (hindex : t.apiKeyHashIndex = s.apiKeyHashIndex)
  | saved (h : KeyChange s.apiKeys a t.apiKeys) (hindex : t.apiKeyHashIndex = hashIndex t.apiKeys)

section

variable {α β : Type} {s inner previous : ControlTables} {a : ControlAction}

theorem saveOrRestore_keyStep (h : KeyChange s.apiKeys a inner.apiKeys)
    (hkeys : previous.apiKeys = s.apiKeys) (hindex : previous.apiKeyHashIndex = s.apiKeyHashIndex)
    (saved : Except AppError Unit) (result : α) :
    KeyStep s a (saveOrRestore saved inner previous result).2 := by
  cases saved with
  | ok => exact .saved h rfl
  | error => exact .still hkeys hindex

theorem checked_keyStep {checks : Except AppError α}
    {change : α → Except AppError β × ControlTables}
    (h : ∀ x, checks = .ok x → KeyStep s a (change x).2) :
    KeyStep s a (s.checked checks change).2 := by
  cases hchecks : checks with
  | error => exact .still rfl rfl
  | ok x => exact h x hchecks

theorem onKey_keyStep {id : String} {change : ApiKeyRecord → Except AppError α × ControlTables}
    (h : ∀ record, s.apiKeys.lookup id = some record → KeyStep s a (change record).2) :
    KeyStep s a (s.onKey id change).2 := by
  rw [onKey]
  split
  · exact .still rfl rfl
  · exact h _ ‹_›

end

variable (sha256 : String → String) {s : ControlTables}

theorem authenticateHeaders_keyStep (headers : String → Option String) (now : ℕ)
    (saved : Except AppError Unit) (a : ControlAction) :
    KeyStep s a (s.authenticateHeaders sha256 headers now saved).2 := by
  rw [authenticateHeaders]
  split
  · exact .still rfl rfl
  dsimp only
  split
  · exact .still rfl rfl
  split
  · exact .still rfl rfl
  rename_i record hrecord
  split
  · exact .still rfl rfl
  split
  · cases saved with
    | ok => exact .saved (.replaced hrecord (.setStatus record "revoked")) rfl
    | error => exact .still rfl rfl
  split
  · exact .still rfl rfl
  · exact .used hrecord rfl rfl

theorem upsertTeam_keyStep (input : UpsertTeamInput) (now : ℕ) (uuid slugUuid : String)
    (saved : Except AppError Unit) (a : ControlAction) :
    KeyStep s a (s.upsertTeam input now uuid slugUuid saved).2 := by
  refine checked_keyStep fun _ _ => ?_
  split_ifs
  · exact .still rfl rfl
  · refine saveOrRestore_keyStep (.mapped (fun key => if _ = some _ then
      { key with teamName := some _ } else key) fun _ => ?_) rfl rfl _ _
    split_ifs <;> exact ⟨rfl, rfl, rfl, rfl, rfl, rfl, rfl, rfl⟩

theorem deleteTeam_keyStep (teamId : String) (saved : Except AppError Unit) (a : ControlAction) :
    KeyStep s a (s.deleteTeam teamId saved).2 := by
  rw [deleteTeam]
  split_ifs
  · exact .still rfl rfl
  · exact .still rfl rfl
  · refine saveOrRestore_keyStep ?_ rfl rfl _ ()
    exact .kept

theorem createApiKey_keyStep (input : CreateApiKeyInput) (now : ℕ) (uuid drawn : String)
    (saved : Except AppError Unit) (a : ControlAction) :
    KeyStep s a (s.createApiKey sha256 input now uuid drawn saved).2 := by
  refine checked_keyStep fun _ hrecord => ?_
  obtain ⟨_, hread, ⟨_, _⟩, -, hrecord⟩ := by
    simpa only [bind_eq_ok_iff] using hrecord
  obtain rfl := pure_eq_ok.mp hrecord
  have hcreated := readApiKey_created hread
  refine saveOrRestore_keyStep ?_ rfl rfl _ _
  exact .created ⟨hcreated.serviceAccount, hcreated.purpose⟩

theorem deleteUserResources_keyStep (userId : String) (saved : Except AppError Unit)
    (a : ControlAction) : KeyStep s a (s.deleteUserResources userId saved).2 := by
  refine saveOrRestore_keyStep (.mapped (fun record => if _ = _ then
    { record with status := "revoked" } else record) fun _ => ?_) rfl rfl _ ()
  split_ifs <;> exact ⟨rfl, rfl, rfl, rfl, rfl, rfl, rfl, rfl⟩

theorem step_keyStep (hkeyed : Keyed s.apiKeys) (a : ControlAction)
    (saved : Except AppError Unit) : KeyStep s a (s.step sha256 (a, saved)) := by
  cases a with
  | upsertTeam input now uuid slugUuid => exact upsertTeam_keyStep input now uuid slugUuid saved _
  | deleteTeam teamId => exact deleteTeam_keyStep teamId saved _
  | createApiKey input now uuid drawn =>
    exact createApiKey_keyStep _ _ now uuid _ _ _
  | revokeApiKey =>
    refine onKey_keyStep fun record hrecord => ?_
    refine saveOrRestore_keyStep ?_ rfl rfl _ ()
    exact .replaced hrecord (.setStatus _ "revoked")
  | updateApiKey id =>
    refine onKey_keyStep fun record hrecord => checked_keyStep fun _ hchanged => ?_
    have hrevised := reviseApiKey_revised hchanged
    refine saveOrRestore_keyStep ?_ rfl rfl _ _
    rw [setKey, hrevised.id, hkeyed id _ hrecord]
    exact .revised rfl hrecord hrevised
  | bindApiKeyScope id =>
    refine checked_keyStep fun _ _ => onKey_keyStep fun _ hrecord => ?_
    refine saveOrRestore_keyStep ?_ rfl rfl _ _
    rw [hkeyed id _ hrecord]
    exact .replaced hrecord ⟨hkeyed id _ hrecord ▸ rfl, rfl, rfl, rfl, rfl, rfl, rfl, rfl⟩
  | deleteApiKey id =>
    exact onKey_keyStep fun _ _ => saveOrRestore_keyStep (.erased id) rfl rfl _ ()
  | deleteUserResources userId => exact deleteUserResources_keyStep userId saved _
  | listQuotas =>
    refine saveOrRestore_keyStep ?_ rfl rfl _ _
    exact .kept
  | upsertQuota =>
    refine checked_keyStep fun _ _ => saveOrRestore_keyStep ?_ rfl rfl _ _
    exact .kept
  | deleteQuota =>
    refine saveOrRestore_keyStep ?_ rfl rfl _ ()
    exact .kept
  | useQuotas => exact .still rfl rfl
  | authenticateHeaders headers now => exact authenticateHeaders_keyStep sha256 headers now saved _
  | changeProviders _ saves =>
    cases saves with
    | true =>
      refine saveOrRestore_keyStep ?_ rfl rfl _ ()
      exact .kept
    | false => exact .still rfl rfl

end ControlTables

end RouteSmith.Model
