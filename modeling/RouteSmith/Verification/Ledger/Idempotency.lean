import RouteSmith.Verification.Ledger.Conservation

/-! # Idempotency keys

Of all the calls that begin a request under one key of a tenant, one creates the request
and the others are told of the conflict, however the calls interleave and whatever becomes
of the request.
-/

namespace RouteSmith.Model.Ledger

open Store Store.Txn Option AList Key

/-! ## The unique index -/

/-- The index on the idempotency keys and the request table agree. -/
def KeyIndex (db : Tables) : Prop :=
  ∀ tenant hash ledgerId, db.lookup (Key.idempotency tenant hash) = some ledgerId ↔
    ∃ row, db.lookup (Key.request ledgerId) = some row ∧ row.record.tenant = tenant ∧
      row.idempotencyKeyHash = some hash

/-- A call that begins a request has written its row, and its entry in the index. -/
def Inserted (sha256 : String → String) (call : Call) (w : Tables) : Prop :=
  ∀ input, call.operation = .beginRequest input → Key.request ("grq_" ++ call.uuid 0) ∈ w ∧
    ∀ key, input.idempotencyKey = some key → Key.idempotency input.tenant (sha256 key) ∈ w

theorem RequestStep.key_eq {call : Call} {ledgerId : String} {old row : RequestRow}
    (h : RequestStep call ledgerId old row) :
    row.record.tenant = old.record.tenant ∧ row.idempotencyKeyHash = old.idempotencyKeyHash := by
  unfold RequestStep at h
  split at h
  · obtain ⟨-, -, hhash, hrecord | ⟨-, hrecord⟩⟩ := h <;> simp [hrecord, hhash]
  · obtain ⟨-, -, rfl⟩ := h
    exact ⟨rfl, rfl⟩
  · obtain ⟨-, rfl⟩ := h
    exact ⟨rfl, rfl⟩
  · exact h.elim

section KeyIndex

variable {sha256 : String → String} {call : Call} {w db : Tables}
  (htraced : Moves (RowStep sha256 call) w db)

include htraced

theorem lookup_idempotency_kept {tenant : TenantKey} {hash ledgerId : String}
    (h : db.lookup (idempotency tenant hash) = some ledgerId) :
    (w ∪ db).lookup (idempotency tenant hash) = some ledgerId := by
  cases hw : w.lookup (idempotency tenant hash) with
  | none => rwa [lookup_union_right (lookup_eq_none.mp hw)]
  | some =>
    have hnone := (htraced _ _ hw).1
    rw [h] at hnone
    cases hnone

/-- The row of a request in a write set is new, or keeps the tenant and the key it had. -/
theorem request_written {ledgerId : String} {row : RequestRow}
    (h : w.lookup (request ledgerId) = some row) :
    (∃ old, db.lookup (request ledgerId) = some old ∧ row.record.tenant = old.record.tenant ∧
      row.idempotencyKeyHash = old.idempotencyKeyHash) ∨
    (db.lookup (request ledgerId) = none ∧ ∃ input, call.operation = .beginRequest input ∧
      ledgerId = "grq_" ++ call.uuid 0 ∧ row = input.row sha256 call) := by
  have hstep := htraced _ _ h
  cases hold : db.lookup (request ledgerId) with
  | none =>
    rw [hold] at hstep
    exact .inr ⟨rfl, hstep⟩
  | some old =>
    rw [hold] at hstep
    exact .inl ⟨old, rfl, RequestStep.key_eq hstep⟩

theorem KeyIndex.union (h : KeyIndex db) (hinserted : Inserted sha256 call w) :
    KeyIndex (w ∪ db) := by
  intro _ hash ledgerId
  constructor
  · intro hentry
    rcases lookup_eq_or _ _ hentry with hentry | ⟨-, hentry⟩
    · obtain ⟨-, input, hop, rfl, hhash, rfl⟩ := htraced _ _ hentry
      obtain ⟨row, hrow⟩ := isSome_iff_exists.mp (lookup_isSome.mpr (hinserted _ hop).1)
      rcases request_written htraced hrow with ⟨old, hold, -⟩ | ⟨-, _, hop', -, rfl⟩
      · have hstep := htraced _ _ hrow
        rw [hold] at hstep
        simp [RowStep, RequestStep, hop] at hstep
      · cases hop.symm.trans hop'
        exact ⟨_, by rw [lookup_union, hrow]; rfl, rfl, hhash⟩
    · obtain ⟨old, hold, htenant, hhash⟩ := (h _ hash _).mp hentry
      cases hw : w.lookup (request ledgerId) with
      | none =>
        exact ⟨old, by rwa [lookup_union_right (lookup_eq_none.mp hw)], htenant, hhash⟩
      | some row =>
        rcases request_written htraced hw with ⟨_, hold', htenant', hhash'⟩ | ⟨hnone, -⟩
        · cases hold.symm.trans hold'
          exact ⟨row, by rw [lookup_union, hw]; rfl, htenant'.trans htenant, hhash'.trans hhash⟩
        · cases hold.symm.trans hnone
  · rintro ⟨row, hrow, htenant, hhash⟩
    rw [← htenant]
    rcases lookup_eq_or _ _ hrow with hrow | ⟨-, hrow⟩
    · rcases request_written htraced hrow with ⟨old, hold, hold', hkey⟩ | ⟨-, _, hop, rfl, rfl⟩
      · rw [hold']
        exact lookup_idempotency_kept htraced
          ((h ..).mpr ⟨old, hold, rfl, hkey.symm.trans hhash⟩)
      · obtain ⟨key, hkey, rfl⟩ := map_eq_some_iff.mp hhash
        obtain ⟨_, hentry⟩ := isSome_iff_exists.mp
          (lookup_isSome.mpr ((hinserted _ hop).2 key hkey))
        obtain ⟨-, -, -, -, -, hid⟩ := htraced _ _ hentry
        rw [lookup_union, ← hid]
        exact congrArg (Option.or · _) hentry
    · exact lookup_idempotency_kept htraced ((h ..).mpr ⟨row, hrow, rfl, hhash⟩)

end KeyIndex

/-! ## Refusals -/

/-- Checks that do not fail with a conflict. -/
def ConflictFree {α : Type} (x : Except AppError α) : Prop :=
  ∀ message, x ≠ .error (.idempotencyConflict message)

theorem ConflictFree.bind {α γ : Type} {x : Except AppError α} {f : α → Except AppError γ}
    (hx : ConflictFree x) (hf : ∀ a, ConflictFree (f a)) : ConflictFree (x >>= f) := by
  cases x with
  | error => exact fun message h => hx message (by cases h; rfl)
  | ok a => exact hf a

theorem conflictFree_validateMetadataText (field : String) (value : Option String)
    (required : Bool) : ConflictFree (validateMetadataText field value required) := by
  unfold validateMetadataText
  split
  · nofun
  · split <;> nofun

theorem conflictFree_validateDecisionText (field value : String) (maxLen : ℕ) :
    ConflictFree (validateDecisionText field value maxLen) := by
  unfold validateDecisionText
  split <;> nofun

theorem conflictFree_validateRoutingDecision (d : RoutingDecisionEvidence) :
    ConflictFree (validateRoutingDecision d) := by
  iterate 8 refine (conflictFree_validateDecisionText _ _ _).bind fun _ => ?_
  split <;> nofun

theorem conflictFree_validateRequestMetadata (m : LedgerRequestMetadata) :
    ConflictFree (validateRequestMetadata m) := by
  iterate 6 refine (conflictFree_validateMetadataText _ _ _).bind fun _ => ?_
  split
  · nofun
  · split
    · nofun
    · exact conflictFree_validateRoutingDecision _

theorem conflictFree_validateBeginRequest (input : BeginRequest) :
    ConflictFree (validateBeginRequest input) := by
  unfold validateBeginRequest
  split
  · nofun
  split
  · nofun
  refine (conflictFree_validateRequestMetadata _).bind fun _ => ?_
  split <;> nofun

/-- Nothing in the input of a call keeps its rows out of the tables. -/
structure Admissible (sha256 : String → String) (call : Call) (input : BeginRequest) : Prop where
  valid : validateBeginRequest input = .ok ()
  texts : (input.row sha256 call).texts.any Text.hasNul = false
  row : (input.row sha256 call).check
  decision : ∀ d, input.metadata.routingDecision = some d → d.check

/-- No row carries the identifiers that a call is about to use. -/
structure FreshIds (call : Call) (input : BeginRequest) (db : Tables) : Prop where
  request : Key.request ("grq_" ++ call.uuid 0) ∉ db
  decisionRequest : Key.decisionRequest ("grq_" ++ call.uuid 0) ∉ db
  decision : ∀ d, input.metadata.routingDecision = some d → Key.decision d.decisionId ∉ db

/-- What the error that refuses a call says: a conflict means that the key is taken, and
there is no other error for an admissible call. -/
structure Refused (sha256 : String → String) (call : Call) (input : BeginRequest) (e : AppError)
    (db : Tables) : Prop where
  taken : ∀ message, e = .idempotencyConflict message →
    ∃ key, input.idempotencyKey = some key ∧ Key.idempotency input.tenant (sha256 key) ∈ db
  conflict : Admissible sha256 call input → FreshIds call input db →
    ∃ message, e = .idempotencyConflict message

variable {v : Tables} {e : AppError}

theorem insertRequestExec_error {ledgerId : String} {row : RequestRow}
    (h : insertRequestExec ledgerId row v = .error e) : (∃ violation, e = .sqlx violation) ∧
      (row.texts.any Text.hasNul = false → row.check → environment row.record.tenant ∈ v →
        request ledgerId ∈ v) := by
  unfold insertRequestExec at h
  split at h
  next hnul =>
    cases h
    exact ⟨⟨_, rfl⟩, fun htexts => absurd hnul (by simp [htexts])⟩
  split at h
  · cases h
    exact ⟨⟨_, rfl⟩, fun _ hcheck => by simp_all⟩
  split at h
  · cases h
  split at h
  · cases h
    exact ⟨⟨_, rfl⟩, fun _ _ _ => lookup_isSome.mp ‹_›⟩
  split at h
  next hnone =>
    cases h
    refine ⟨⟨_, rfl⟩, fun _ _ henv => ?_⟩
    rw [isNone_iff_eq_none, lookup_eq_none] at hnone
    exact absurd henv hnone
  · cases h

theorem insertDecisionExec_error {row : DecisionRow} (h : insertDecisionExec row v = .error e) :
    (∃ violation, e = .sqlx violation) ∧
      (row.evidence.check → hasRequest v row.tenant row.requestLedgerId →
        decision row.evidence.decisionId ∈ v ∨ decisionRequest row.requestLedgerId ∈ v) := by
  unfold insertDecisionExec at h
  dsimp only at h
  split at h
  next hconstraint =>
    simp only [constraint] at hconstraint
    cases h
    split at hconstraint
    · cases hconstraint
      exact ⟨⟨_, rfl⟩, fun hcheck => by simp_all⟩
    split at hconstraint
    · cases hconstraint
      exact ⟨⟨_, rfl⟩, fun _ hrequest => by simp_all⟩
    · cases hconstraint
  split at h
  next htaken =>
    cases h
    refine ⟨⟨_, rfl⟩, fun _ _ => ?_⟩
    rwa [Bool.or_eq_true, lookup_isSome, lookup_isSome] at htaken
  · cases h

theorem reportConflictExec_error {input : BeginRequest} {hash : String}
    (h : reportConflictExec input hash v = .error e) :
    (selectByKey input.tenant hash v = none ∧ e = .sqlx .rowNotFound) ∨
      ∃ message, e = .idempotencyConflict message := by
  unfold reportConflictExec at h
  split at h
  · cases h
    exact .inl ⟨‹_›, rfl⟩
  · cases h
    exact .inr ⟨_, rfl⟩

/-! ## The transaction that begins a request -/

/-- The keys of the tenant catalog. -/
def CatalogKey : Key → Prop
  | .organization _ => True
  | .project _ _ => True
  | .environment _ => True
  | _ => False

section Programs

variable {I : Tables → Prop} {E : Post Row AppError} {w db : Tables}

theorem wp_insertCatalog {k : Key} {row : Row k} (hk : CatalogKey k)
    (hconstraint : constraint (w ∪ db) k row = none) (hw : ∀ k ∈ w, CatalogKey k) :
    (insertIgnore constraint k row).Wp I
      (fun _ w db => (∀ k ∈ w, CatalogKey k) ∧ k ∈ w ∪ db) E w db := by
  refine wp_insertIgnore (fun e he => ?_) (fun hsome _ _ hev => ⟨hw, ?_⟩)
    fun _ _ _ _ => ⟨fun k' hk' => ?_, ?_⟩
  · rw [hconstraint] at he
    cases he
  · rw [lookup_isSome, mem_union] at hsome
    exact mem_union.mpr (hsome.imp_right (hev.mem k))
  · rcases mem_union.mp hk' with hk' | hk'
    · rw [mem_row_singleton] at hk'
      exact hk' ▸ hk
    · exact hw k' hk'
  · simp

/-- The tenant catalog is there for the statements that follow. -/
theorem wp_ensureTenantCatalog (tenant : TenantKey) : (ensureTenantCatalog tenant).Wp I
      (fun _ w db => (∀ k ∈ w, CatalogKey k) ∧ environment tenant ∈ w ∪ db) E ∅ db := by
  simp only [ensureTenantCatalog, wp_bind, wp_pure]
  refine (wp_insertCatalog (by trivial) rfl (by simp)).mono fun _ _ _ ⟨hw₁, horganization⟩ => ?_
  refine (wp_insertCatalog (by trivial) ?_ hw₁).mono fun _ _ _ ⟨hw₂, hproject⟩ => ?_
  · rw [← lookup_isSome] at horganization
    simp [constraint, isSome_iff_ne_none.mp horganization]
  · refine wp_insertCatalog (by trivial) ?_ hw₂
    rw [← lookup_isSome] at hproject
    simp [constraint, isSome_iff_ne_none.mp hproject]

variable {sha256 : String → String} {call : Call} {input : BeginRequest}

theorem wp_reportConflict {key : String} (hkey : input.idempotencyKey = some key)
    (hw : ∀ k ∈ w, CatalogKey k) (hdb : KeyIndex db)
    (htaken : idempotency input.tenant (sha256 key) ∈ db) {Q : Post Row Reply} :
    (reportConflict input (some (sha256 key))).Wp I Q
      (fun e _ db => Refused sha256 call input e db) w db := by
  refine wp_statement (fun e he => ?_) fun u x h => absurd h (reportConflictExec_ne_ok _ _ _ _)
  -- the entry leads to the row of the request, so the query finds it
  obtain ⟨_, hentry⟩ := isSome_iff_exists.mp (lookup_isSome.mpr htaken)
  obtain ⟨_, hrow, -⟩ := (hdb ..).mp hentry
  have hview : ∀ k, ¬CatalogKey k → (w ∪ db).lookup k = db.lookup k :=
    fun k hk => lookup_union_right fun hmem => hk (hw k hmem)
  rcases reportConflictExec_error he with ⟨hnone, -⟩ | ⟨message, rfl⟩
  · rw [selectByKey, hview _ id, hentry, bind_some, hview _ id, hrow] at hnone
    cases hnone
  · exact ⟨fun _ _ => ⟨key, hkey, htaken⟩, fun _ _ => ⟨message, rfl⟩⟩

/-- An error of the database is not a conflict, and does not befall an admissible call. -/
theorem Refused.of_sqlx {e : AppError} (he : ∃ violation, e = .sqlx violation)
    (h : Admissible sha256 call input → ¬FreshIds call input db) :
    Refused sha256 call input e db := by
  obtain ⟨_, rfl⟩ := he
  exact ⟨nofun, fun hadmissible hfresh => absurd hfresh (h hadmissible)⟩

theorem wp_insertRoutingDecision {Q : Post Row Unit}
    (hrequest : w.lookup (request ("grq_" ++ call.uuid 0)) = some (input.row sha256 call))
    (hw : ∀ d, decision d ∉ w ∧ decisionRequest d ∉ w)
    (hQ : ∀ u db, Q () (u ∪ w) db) :
    (insertRoutingDecision ("grq_" ++ call.uuid 0) input.tenant
      input.metadata.routingDecision).Wp I Q
        (fun e _ db => Refused sha256 call input e db) w db := by
  cases hd : input.metadata.routingDecision with
  | none => exact (wp_pure _ _).mpr (by simpa using hQ ∅ db)
  | some d =>
    refine wp_statement (fun e he => ?_) fun u _ _ db' _ _ => hQ u db'
    obtain ⟨hsqlx, htaken⟩ := insertDecisionExec_error he
    refine .of_sqlx hsqlx fun hadmissible hfresh => ?_
    have hhas : hasRequest (w ∪ db) input.tenant ("grq_" ++ call.uuid 0) := by
      rw [hasRequest, lookup_union, hrequest]
      exact beq_self_eq_true _
    rcases htaken (hadmissible.decision d hd) hhas with hmem | hmem
    · exact (mem_union.mp hmem).elim (hw _).1 (hfresh.decision d hd)
    · exact (mem_union.mp hmem).elim (hw _).2 hfresh.decisionRequest

theorem mem_indexEntry {hash : Option String} {tenant : TenantKey} {ledgerId : String} {k : Key} :
    k ∈ (hash.elim (∅ : Tables) fun hash => singleton (idempotency tenant hash) ledgerId) ↔
      ∃ h, hash = some h ∧ k = idempotency tenant h := by
  cases hash <;> simp

theorem wp_beginRequest (db : Tables) (hop : call.operation = .beginRequest input) :
    (beginRequestWithMetadata sha256 input call).Wp KeyIndex (fun _ w _ => Inserted sha256 call w)
      (fun e _ db => Refused sha256 call input e db) ∅ db := by
  simp only [beginRequestWithMetadata, wp_bind]
  refine wp_ofExcept (fun e he => ⟨fun _ hm => ?_, fun hadmissible => ?_⟩) fun _ _ => ?_
  · exact absurd (hm ▸ he) (conflictFree_validateBeginRequest _ _)
  · rw [hadmissible.valid] at he
    cases he
  refine (wp_ensureTenantCatalog _).mono fun _ _ _ hcatalog => ?_
  obtain ⟨hw₁, henv⟩ := hcatalog
  refine wp_statement (fun e he => ?_) fun u _ hu _ hdb₂ hev => ?_
  · obtain ⟨hsqlx, htaken⟩ := insertRequestExec_error he
    refine .of_sqlx hsqlx fun hadmissible hfresh => ?_
    exact (mem_union.mp (htaken hadmissible.texts hadmissible.row henv)).elim (hw₁ _) hfresh.request
  rcases insertRequestExec_ok hu with ⟨rfl, rfl, hash, hhash, htaken⟩ | ⟨rfl, -, -, rfl⟩
  · obtain ⟨key, hkey, rfl⟩ := map_eq_some_iff.mp hhash
    have hdb₁ := (mem_union.mp (lookup_isSome.mp htaken)).resolve_left fun h => hw₁ _ h
    simp only [hhash]
    exact wp_reportConflict hkey hw₁ hdb₂ (hev.mem _ hdb₁)
  · simp only [if_true, wp_bind, wp_pure]
    refine wp_insertRoutingDecision ?_ (fun d => ?_) fun u _ _ hop' => ?_
    · rw [lookup_union, lookup_union_right, lookup_singleton_self]
      · rfl
      · simp [mem_indexEntry]
    · simp only [mem_union, mem_indexEntry, mem_row_singleton, reduceCtorEq, and_false,
        exists_false, false_or]
      exact ⟨hw₁ _, hw₁ _⟩
    · cases hop.symm.trans hop'
      refine ⟨by simp, fun key hkey => ?_⟩
      have hhash : (input.row sha256 call).idempotencyKeyHash = some (sha256 key) := by
        simp [BeginRequest.row, hkey]
      simp only [mem_union, mem_indexEntry]
      exact .inr (.inl (.inl ⟨sha256 key, hhash, rfl⟩))

/-- What a transaction has written when it commits. -/
def KeyPost (sha256 : String → String) (call : Call) (_ : Reply) (w db : Tables) : Prop :=
  (∀ k row, w.lookup k = some row → RowStep sha256 call k (db.lookup k) row) ∧
    Inserted sha256 call w

def KeyRefusal (sha256 : String → String) (call : Call) (e : AppError) (_ db : Tables) : Prop :=
  ∀ input, call.operation = .beginRequest input → Refused sha256 call input e db

theorem wp_program_keys (sha256 : String → String) (call : Call) (db : Tables) :
    (call.program sha256).Wp KeyIndex (KeyPost sha256 call) (KeyRefusal sha256 call) ∅ db := by
  have htraced := (respects_program sha256 call).wp_traced (I := KeyIndex) .trans db
  by_cases hop : ∃ input, call.operation = .beginRequest input
  · obtain ⟨input, hop⟩ := hop
    have hbegin : (call.program sha256).Wp KeyIndex (fun _ w _ => Inserted sha256 call w)
        (fun e _ => Refused sha256 call input e) ∅ db := by
      simp only [Call.program, hop]
      exact wp_beginRequest db hop
    refine (htraced.and hbegin).conseq (fun _ _ _ h => h) fun e w _ h _ hop' => ?_
    cases hop.symm.trans hop'
    exact h.2
  · exact htraced.conseq (fun _ _ _ h => ⟨h, fun input hop' => absurd ⟨input, hop'⟩ hop⟩)
      fun _ _ _ _ input hop' => absurd ⟨input, hop'⟩ hop

end Programs

/-! ## Every run -/

/-- Call `i` began a request under the key, and succeeded. -/
def Creates (s : LedgerServer) (tenant : TenantKey) (key : String) (i : ℕ) : Prop :=
  ∃ call input reply, s.calls i = .returned call (.ok reply) ∧
    call.operation = .beginRequest input ∧ input.tenant = tenant ∧ input.idempotencyKey = some key

/-- The idempotency keys of the calls made so far. -/
def keysUsed (s : LedgerServer) : Set String :=
  { key | ∃ i call input, (s.calls i).op = some call ∧ call.operation = .beginRequest input ∧
    input.idempotencyKey = some key }

/-- The identifiers of the calls made so far are distinct, as random ones are. -/
def IdsDistinct (s : LedgerServer) : Prop :=
  ∀ i j call call' input input', i ≠ j → (s.calls i).op = some call → (s.calls j).op = some call' →
    call.operation = .beginRequest input → call'.operation = .beginRequest input' →
    call.uuid 0 ≠ call'.uuid 0 ∧ ∀ d d', input.metadata.routingDecision = some d →
      input'.metadata.routingDecision = some d' → d.decisionId ≠ d'.decisionId

section Runs

variable {sha256 : String → String} {created : ℤ} {s s' : LedgerServer} {i : ℕ}

theorem keyIndex_migrated (created : ℤ) : KeyIndex (migrated created) := by
  intro tenant hash ledgerId
  have hentry : (migrated created).lookup (idempotency tenant hash) = none := rfl
  have hrequest : (migrated created).lookup (request ledgerId) = none := rfl
  simp [hentry, hrequest]

section

variable (h : Reachable sha256 created s)

include h

theorem Reachable.guarded_keys :
    Server.Holds KeyIndex (Server.Guarded KeyIndex (KeyPost sha256) (KeyRefusal sha256)) s :=
  Server.Run.holds (.of_wp (fun call db _ => wp_program_keys _ call db)
    fun _ _ _ _ hdb hpost => hdb.union hpost.1 hpost.2) h (.initial (keyIndex_migrated _))

theorem Reachable.row_origin {k : Key} (hk : k ∈ s.db) (hmigrated : k ∉ migrated created) :
    ∃ i call reply row, s.calls i = .returned call (.ok reply) ∧ RowStep sha256 call k none row :=
  (Server.Run.row_origin (sessionInvariant_rowStep _) h hk).resolve_left hmigrated

variable {call : Call} {input : BeginRequest} {key : String}

theorem Reachable.entry {reply : Reply} (hi : s.calls i = .returned call (.ok reply))
    (hop : call.operation = .beginRequest input) (hkey : input.idempotencyKey = some key) :
    s.db.lookup (idempotency input.tenant (sha256 key)) = some ("grq_" ++ call.uuid 0) := by
  induction h with
  | refl => cases hi
  | @tail s₁ s₂ hrun hstep ih =>
    obtain ⟨j, hstep⟩ := hstep
    have hs₁ : Reachable sha256 created s₁ := hrun
    rcases hstep.ok_cases hi with hbefore | ⟨rfl, w, hrunning, hdb⟩
    · rcases hstep.row_cases hs₁.traced (idempotency input.tenant (sha256 key)) with
        heq | ⟨_, _, _, _, _, _, _, _, hnone, -⟩
      · exact heq.trans (ih hbefore)
      · rw [ih hbefore] at hnone
        cases hnone
    · have hpost := hs₁.guarded_keys.session _ _ _ _ hrunning _ hs₁.guarded_keys.db (.refl _ _)
      obtain ⟨htraced, hinserted⟩ := (wp_pure _ _).mp hpost
      obtain ⟨_, hentry⟩ := isSome_iff_exists.mp
        (lookup_isSome.mpr ((hinserted _ hop).2 key hkey))
      obtain ⟨-, -, -, -, -, rfl⟩ := htraced _ _ hentry
      rw [hdb, lookup_union, hentry]
      rfl

theorem Reachable.creates_unique {tenant : TenantKey} {j : ℕ} (hi : Creates s tenant key i)
    (hj : Creates s tenant key j) : i = j := by
  induction h with
  | refl =>
    obtain ⟨_, _, _, hi, -⟩ := hi
    cases hi
  | @tail s₁ s₂ hrun hstep ih =>
    have hs₁ : Reachable sha256 created s₁ := hrun
    obtain ⟨n, hstep⟩ := hstep
    -- whoever commits second finds the entry of the first
    have hcases : ∀ {m}, Creates s₂ tenant key m →
        Creates s₁ tenant key m ∨ m = n ∧ ∀ k, ¬Creates s₁ tenant key k := by
      rintro m ⟨call, input, reply, hreturned, hop, rfl, hkey⟩
      rcases hstep.ok_cases hreturned with hm | ⟨rfl, w, hrunning, -⟩
      · exact .inl ⟨call, input, reply, hm, hop, rfl, hkey⟩
      refine .inr ⟨rfl, ?_⟩
      rintro k ⟨_, _, _, hk, hop', htenant', hkey'⟩
      have hpost := hs₁.guarded_keys.session _ _ _ _ hrunning _ hs₁.guarded_keys.db (.refl _ _)
      obtain ⟨htraced, hinserted⟩ := (wp_pure _ _).mp hpost
      obtain ⟨_, hentry⟩ := isSome_iff_exists.mp
        (lookup_isSome.mpr ((hinserted _ hop).2 key hkey))
      have hnone := (htraced _ _ hentry).1
      rw [← htenant', hs₁.entry hk hop' hkey'] at hnone
      cases hnone
    rcases hcases hi with hi | ⟨rfl, hi⟩ <;> rcases hcases hj with hj | ⟨rfl, hj⟩
    · exact ih hi hj
    · exact absurd hi (hj i)
    · exact absurd hj (hi j)
    · rfl

/-- The key that an entry was made for was used by a call that created a request. -/
theorem Reachable.creates_of_entry (hsha : Set.InjOn sha256 (keysUsed s)) {tenant : TenantKey}
    (hused : key ∈ keysUsed s) (hentry : idempotency tenant (sha256 key) ∈ s.db) :
    ∃ j, Creates s tenant key j := by
  obtain ⟨j, call, reply, _, hj, -, input, hop, rfl, hhash, -⟩ :=
    h.row_origin hentry (lookup_eq_none.mp rfl)
  obtain ⟨key', hkey', hsame⟩ := map_eq_some_iff.mp hhash
  have hused' : key' ∈ keysUsed s := ⟨j, call, input, by rw [hj]; rfl, hop, hkey'⟩
  obtain rfl := hsha hused' hused hsame
  exact ⟨j, call, input, reply, hj, hop, rfl, hkey'⟩

theorem Reachable.freshIds (hrun : Server.Run (Call.program sha256) s s') (hids : IdsDistinct s')
    {e : AppError} (hi : s'.calls i = .returned call (.error e))
    (hop : call.operation = .beginRequest input) : FreshIds call input s.db := by
  -- a row with such an identifier would stem from another call
  have hother : ∀ {k}, k ∈ s.db → k ∉ migrated created → ∃ call' row,
      RowStep sha256 call' k none row ∧ ∀ {input'}, call'.operation = .beginRequest input' →
      call.uuid 0 ≠ call'.uuid 0 ∧ ∀ d d', input.metadata.routingDecision = some d →
        input'.metadata.routingDecision = some d' → d.decisionId ≠ d'.decisionId := by
    intro k hk hmigrated
    obtain ⟨j, call', _, row, hj, hrow⟩ := h.row_origin hk hmigrated
    have hj' := hrun.returned_stable hj
    refine ⟨call', row, hrow, fun {_} hop' => hids i j call _ _ _ ?_
      (by rw [hi]; rfl) (by rw [hj']; rfl) hop hop'⟩
    rintro rfl
    rw [hi] at hj'
    cases hj'
  refine ⟨fun hmem => ?_, fun hmem => ?_, fun d hd hmem => ?_⟩
  · obtain ⟨_, _, ⟨_, hop', hid, -⟩, hne⟩ := hother hmem (lookup_eq_none.mp rfl)
    exact (hne hop').1 (by simpa using hid)
  · obtain ⟨_, _, ⟨-, _, hop', hid⟩, hne⟩ := hother hmem (lookup_eq_none.mp rfl)
    exact (hne hop').1 (by simpa using hid)
  · obtain ⟨_, _, ⟨-, _, hop', hd', hid⟩, hne⟩ := hother hmem (lookup_eq_none.mp rfl)
    exact (hne hop').2 d _ hd hd' hid

theorem Reachable.exists_refused {e : AppError} (hi : s.calls i = .returned call (.error e))
    (hop : call.operation = .beginRequest input) : ∃ s₁, Reachable sha256 created s₁ ∧
      Server.Run (Call.program sha256) s₁ s ∧ Refused sha256 call input e s₁.db := by
  obtain ⟨s₁, _, hs₁, hstep, hrun, hne, hreturned⟩ := Server.Run.exists_return h hi
  have hs₁ : Reachable sha256 created s₁ := hs₁
  rcases hstep.guarded_return hs₁.guarded_keys hreturned hne with
    ⟨_, _, hok, -⟩ | ⟨e', w, he, -, hrefused⟩
  · cases hok
  · cases he
    exact ⟨s₁, hs₁, .head ⟨i, hstep⟩ hrun, hrefused _ hop⟩

end

end Runs

/-- What holds of the calls that have begun requests under idempotency keys. -/
structure OncePerKey (sha256 : String → String) (created : ℤ) (s : LedgerServer) : Prop where
  unique : ∀ {tenant key i j}, Creates s tenant key i → Creates s tenant key j → i = j
  /-- When an admissible call has returned, one call has created the request, and if it was
  another one, this one was told of the conflict. -/
  settled : ∀ {i call input key result}, s.calls i = .returned call result →
    call.operation = .beginRequest input → input.idempotencyKey = some key →
    Admissible sha256 call input → ∃ j, Creates s input.tenant key j ∧
      (j ≠ i → ∃ message, result = .error (.idempotencyConflict message))
  /-- Conflicts are only with a request of the same tenant under the same key. -/
  conflict : ∀ {i call input message},
    s.calls i = .returned call (.error (.idempotencyConflict message)) →
    call.operation = .beginRequest input →
      ∃ key j, input.idempotencyKey = some key ∧ Creates s input.tenant key j
  /-- The request that was created is the one row under the key. -/
  row : ∀ {tenant key i}, Creates s tenant key i →
    ∃! ledgerId, ∃ row, s.db.lookup (Key.request ledgerId) = some row ∧
      row.record.tenant = tenant ∧ row.idempotencyKeyHash = some (sha256 key)
  /-- No step of a call that was refused changed a row. -/
  traceless : ∀ {s₁ s₂ i call e}, Reachable sha256 created s₁ →
    Server.Step (Call.program sha256) i s₁ s₂ → Server.Run (Call.program sha256) s₂ s →
    s.calls i = .returned call (.error e) → s₂.db = s₁.db

/-- In every state that interleaved calls reach, whatever has become of the requests: of the
admissible calls under one key of a tenant exactly one created the request, and every other
one returned a conflict and left nothing behind. -/
theorem beginRequest_oncePerKey {sha256 : String → String} {created : ℤ} {s : LedgerServer}
    (h : Reachable sha256 created s) (hsha : Set.InjOn sha256 (keysUsed s)) (hids : IdsDistinct s) :
    OncePerKey sha256 created s where
  unique hi hj := h.creates_unique hi hj
  settled {i call input key result} hi hop hkey hadmissible := by
    cases result with
    | ok reply => exact ⟨i, ⟨call, input, reply, hi, hop, rfl, hkey⟩, absurd rfl⟩
    | error =>
      obtain ⟨_, hs₁, hrun, hrefused⟩ := h.exists_refused hi hop
      obtain ⟨message, rfl⟩ := hrefused.conflict hadmissible (hs₁.freshIds hrun hids hi hop)
      obtain ⟨_, hkey', htaken⟩ := hrefused.taken _ rfl
      cases hkey.symm.trans hkey'
      obtain ⟨j, hj⟩ := h.creates_of_entry hsha ⟨i, call, input, by rw [hi]; rfl, hop, hkey⟩
        (hrun.mem_db htaken)
      exact ⟨j, hj, fun _ => ⟨message, rfl⟩⟩
  conflict {i call input message} hi hop := by
    obtain ⟨_, -, hrun, hrefused⟩ := h.exists_refused hi hop
    obtain ⟨key, hkey, htaken⟩ := hrefused.taken _ rfl
    obtain ⟨j, hj⟩ := h.creates_of_entry hsha ⟨i, call, input, by rw [hi]; rfl, hop, hkey⟩
      (hrun.mem_db htaken)
    exact ⟨key, j, hkey, hj⟩
  row := by
    rintro _ _ i ⟨_, _, _, hi, hop, rfl, hkey⟩
    have hentry := h.entry hi hop hkey
    refine ⟨_, (h.guarded_keys.db ..).mp hentry, fun _ hrow => ?_⟩
    exact some.inj (((h.guarded_keys.db ..).mpr hrow).symm.trans hentry)
  traceless _ hstep hrun hi := hstep.db_eq_of_not_ok hrun fun _ a hok => by
    rw [hi] at hok
    cases hok

/-- A key whose sample hash, itself, has the length of a digest. -/
def sampleKey : String := String.ofList (List.replicate 64 'k')

/-- A second call under a key is told of the conflict with the first. -/
theorem beginRequest_oncePerKey_sample : ∃ (s : LedgerServer) (call : Call) (message : String),
    Reachable id 0 s ∧ s.calls 1 = .returned call (.error (.idempotencyConflict message)) ∧
    ∃ j, Creates s .local sampleKey j ∧ ∀ i, Creates s .local sampleKey i → i = j := by
  let first := sampleCall (.beginRequest (sampleRequest (some sampleKey))) "r" 1
  let second := sampleCall (.beginRequest (sampleRequest (some sampleKey))) "q" 2
  have hrun : (Server.sequential (Call.program id) [first] (migrated 0)).map (fun db =>
      ((second.program id).run db ∅).map fun _ => ()) = some (.error
        (.idempotencyConflict "the original request is still in progress")) := by decide
  obtain ⟨_, hdb, hconflict⟩ := map_eq_some_iff.mp hrun
  obtain ⟨s, hs, rfl, hquiet, hidle, hreturned₁⟩ := Server.exists_run_of_sequential hdb
  have hrefused : (second.program id).run s.db ∅ = .error
      (.idempotencyConflict "the original request is still in progress") := by
    cases hresult : (second.program id).run s.db ∅ with
    | ok => simp [hresult, Except.map] at hconflict
    | error => simpa [hresult, Except.map] using hconflict
  obtain ⟨s', hs', -, hreturned, hother⟩ := hquiet.exists_refusal (hidle 1 le_rfl) hrefused
  have hcalls : ∀ i call, (s'.calls i).op = some call →
      i = 0 ∧ call = first ∨ i = 1 ∧ call = second := by
    intro i call hi
    by_cases hi1 : i = 1
    · subst hi1
      rw [hreturned] at hi
      exact .inr ⟨rfl, (some.inj hi).symm⟩
    · rw [hother i hi1] at hi
      obtain rfl | hlarge : i = 0 ∨ 1 ≤ i := by omega
      · obtain ⟨_, hfirst⟩ := hreturned₁ 0 first rfl
        rw [hfirst] at hi
        exact .inl ⟨rfl, (some.inj hi).symm⟩
      · rw [hidle i hlarge] at hi
        cases hi
  have hids : IdsDistinct s' := by
    intro i j call call' input _ hne hi hj hop _
    have hnone : input.metadata.routingDecision = none := by
      rcases hcalls i call hi with ⟨-, rfl⟩ | ⟨-, rfl⟩ <;> cases hop <;> rfl
    refine ⟨?_, fun d _ hd => by rw [hnone] at hd; cases hd⟩
    rcases hcalls i call hi with ⟨rfl, rfl⟩ | ⟨rfl, rfl⟩ <;>
      rcases hcalls j call' hj with ⟨rfl, rfl⟩ | ⟨rfl, rfl⟩
    · exact absurd rfl hne
    · decide
    · decide
    · exact absurd rfl hne
  have honce := beginRequest_oncePerKey (hs.trans hs') Function.injective_id.injOn hids
  obtain ⟨_, j, hkey, hj⟩ := honce.conflict hreturned rfl
  cases hkey
  exact ⟨s', second, _, hs.trans hs', hreturned, j, hj, fun i hi => honce.unique hi hj⟩

/-- A call whose traffic class the ledger does not take returns that error, even where the
key is taken. -/
theorem beginRequest_unsupported_counterexample : ∃ (s : LedgerServer) (call : Call)
    (input : BeginRequest), Reachable id 0 s ∧ Creates s .local sampleKey 0 ∧
    s.calls 1 = .returned call
      (.error (.invalidRequest "unsupported traffic class for enterprise ledger")) ∧
    call.operation = .beginRequest input ∧ input.tenant = .local ∧
    input.idempotencyKey = some sampleKey := by
  let first := sampleCall (.beginRequest (sampleRequest (some sampleKey))) "r" 1
  let request := sampleRequest (some sampleKey)
  let batch := { request with metadata := { request.metadata with trafficClass := "batch" } }
  let second := sampleCall (.beginRequest batch) "q" 2
  have hrun : (Server.sequential (Call.program id) [first] (migrated 0)).isSome := by decide
  obtain ⟨_, hdb⟩ := isSome_iff_exists.mp hrun
  obtain ⟨s, hs, -, hquiet, hidle, hreturned₁⟩ := Server.exists_run_of_sequential hdb
  have hrefused : (second.program id).run s.db ∅ = .error
      (.invalidRequest "unsupported traffic class for enterprise ledger") := rfl
  obtain ⟨s', hs', -, hreturned, hother⟩ := hquiet.exists_refusal (hidle 1 le_rfl) hrefused
  obtain ⟨reply, hfirst⟩ := hreturned₁ 0 first rfl
  have hcreates : Creates s' .local sampleKey 0 :=
    ⟨first, request, reply, (hother 0 (by decide)).trans hfirst, rfl, rfl, rfl⟩
  exact ⟨s', second, batch, hs.trans hs', hcreates, hreturned, rfl, rfl, rfl⟩

end RouteSmith.Model.Ledger
