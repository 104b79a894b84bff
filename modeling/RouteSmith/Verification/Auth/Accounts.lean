import RouteSmith.Verification.Auth.Effects

/-! # Accounts over whole runs

There is always an active admin, no two users share a name or an identity, and every session
belongs to a user.
-/

namespace RouteSmith.Model

open Control Store Text List AuthInner

def SharesName (user other : AdminUserRecord) : Prop :=
  eqIgnoreAsciiCase user.username other.username = true

def SharesIdentity (user other : AdminUserRecord) : Prop :=
  ∃ identity ∈ user.federatedIdentities, identity ∈ other.federatedIdentities

structure Consistent (s : AuthInner) : Prop where
  admin : ∃ id user, s.users.lookup id = some user ∧ isActiveAdmin user = true
  usernames : s.users.Apart SharesName
  identities : s.users.Apart SharesIdentity
  sessions : Owned s

/-! ## One effect -/

theorem sharesName_symm (user other : AdminUserRecord) (h : SharesName user other) :
    SharesName other user := by
  rw [SharesName, eqIgnoreAsciiCase, beq_iff_eq] at h ⊢
  exact h.symm

theorem sharesIdentity_symm (user other : AdminUserRecord) (h : SharesIdentity user other) :
    SharesIdentity other user := by
  obtain ⟨identity, huser, hother⟩ := h
  exact ⟨identity, hother, huser⟩

namespace Consistent

variable {env : AuthEnv} {a : AuthAction} {s t : AuthInner} {userId : String}
  {user changed : AdminUserRecord}

section

variable (h : Consistent s)

include h

theorem usernames_replace (huser : s.users.lookup userId = some user)
    (hname : changed.username = user.username) :
    NameMap.Apart SharesName (s.users.insert userId changed) := by
  refine h.usernames.replace sharesName_symm huser ?_
  intro _ hother
  rwa [SharesName, hname] at hother

theorem identities_replace (huser : s.users.lookup userId = some user)
    (hidentities : changed.federatedIdentities = user.federatedIdentities) :
    NameMap.Apart SharesIdentity (s.users.insert userId changed) := by
  refine h.identities.replace sharesIdentity_symm huser ?_
  intro _ hother
  rwa [SharesIdentity, hidentities] at hother

theorem admin_replace (huser : s.users.lookup userId = some user)
    (hsame : isActiveAdmin changed = isActiveAdmin user) :
    ∃ id admin, (s.users.insert userId changed).lookup id = some admin ∧
      isActiveAdmin admin = true := by
  obtain ⟨id, admin, hadmin, hactive⟩ := h.admin
  by_cases hid : id = userId
  · rw [hid, huser] at hadmin
    cases hadmin
    exact ⟨userId, changed, AList.lookup_insert _, hsame.trans hactive⟩
  · exact ⟨id, admin, by rwa [AList.lookup_insert_ne hid], hactive⟩

theorem admin_add (hfresh : userId ∉ s.users) (user : AdminUserRecord) :
    ∃ id admin, (s.users.insert userId user).lookup id = some admin ∧
      isActiveAdmin admin = true := by
  obtain ⟨id, admin, hadmin, hactive⟩ := h.admin
  have hid : id ≠ userId := by
    rintro rfl
    exact hfresh (NameMap.mem_iff_exists_lookup.mpr ⟨admin, hadmin⟩)
  exact ⟨id, admin, by rwa [AList.lookup_insert_ne hid], hactive⟩

theorem admin_remove (huser : s.users.lookup userId = some user)
    (hadmins : user.role = "admin" → 1 < s.users.values.countP isActiveAdmin) :
    ∃ id admin, (s.users.erase userId).lookup id = some admin ∧ isActiveAdmin admin = true := by
  obtain ⟨id, admin, hid, hadmin, hactive⟩ : ∃ id admin, id ≠ userId ∧
      s.users.lookup id = some admin ∧ isActiveAdmin admin = true := by
    by_cases hrole : user.role = "admin"
    · exact NameMap.exists_ne_of_one_lt_countP (hadmins hrole) _
    · obtain ⟨id, admin, hadmin, hactive⟩ := h.admin
      refine ⟨id, admin, ?_, hadmin, hactive⟩
      rintro rfl
      rw [huser] at hadmin
      cases hadmin
      simp [isActiveAdmin, hrole] at hactive
  exact ⟨id, admin, by rwa [AList.lookup_erase_ne hid], hactive⟩

theorem effect {users : NameMap AdminUserRecord} (heffect : Effect env a users s t)
    (hfresh : ∀ id ∈ a.newId?, id ∉ users) : Consistent t := by
  have hsessions := heffect.owned h.sessions
  cases heffect with
  | lapse husers =>
    exact ⟨husers ▸ h.admin, husers ▸ h.usernames, husers ▸ h.identities, hsessions⟩
  | issue huser _ hsame _ _ husers =>
    refine ⟨?_, ?_, ?_, hsessions⟩ <;> rw [husers]
    · exact h.admin_replace huser (by rw [isActiveAdmin, isActiveAdmin, hsame.role, hsame.status])
    · exact h.usernames_replace huser hsame.username
    · exact h.identities_replace huser hsame.federatedIdentities
  | bind huser hunbound husers _ =>
    refine ⟨?_, ?_, ?_, hsessions⟩ <;> rw [husers]
    · exact h.admin_replace huser rfl
    · exact h.usernames_replace huser rfl
    · refine h.identities.insert sharesIdentity_symm ?_
      rintro id other hid hother ⟨identity, hidentity, hshared⟩
      rcases mem_append.mp hidentity with hold | hnew
      · exact hid (h.identities _ _ _ _ hother huser ⟨identity, hshared, hold⟩)
      · rw [mem_singleton.mp hnew] at hshared
        exact hunbound id _ hother hshared
  | add hstart hid hname hunbound husers _ =>
    refine ⟨?_, ?_, ?_, hsessions⟩ <;> rw [husers]
    · exact h.admin_add (hstart ▸ hfresh _ hid) _
    · refine h.usernames.insert sharesName_symm ?_
      intro id other _ hother hshares
      exact Bool.eq_false_iff.mp (hname id _ hother) (sharesName_symm _ _ hshares)
    · refine h.identities.insert sharesIdentity_symm ?_
      rintro id _ _ hother ⟨_, hidentity, hshared⟩
      exact hunbound _ hidentity id _ hother hshared
  | revise huser hid hname hidentities hadmin husers _ =>
    refine ⟨hadmin, ?_, ?_, hsessions⟩ <;> rw [husers]
    · exact h.usernames_replace huser hname
    · exact h.identities_replace huser hidentities
  | remove huser hadmins husers _ =>
    refine ⟨?_, ?_, ?_, hsessions⟩ <;> rw [husers]
    · exact h.admin_remove huser hadmins
    · exact h.usernames.erase _
    · exact h.identities.erase _

theorem effects (heffects : Effects env a s t) (hfresh : ∀ id ∈ a.newId?, id ∉ s.users) :
    Consistent t := by
  refine Relation.ReflTransGen.head_induction_on (motive := fun r _ => Consistent r → Consistent t)
    heffects id ?_ h
  intro r _ heffect _ ih hr
  exact ih (hr.effect heffect hfresh)

end

end Consistent

/-! ## Documents -/

/-- A document with an active admin in which no two users share an id, a name or an identity. -/
structure AuthFile.Valid (file : AuthFile) : Prop where
  ids : (file.users.map (·.id)).Nodup
  admin : ∃ user ∈ file.users, isActiveAdmin user = true
  usernames : file.users.Pairwise fun user other => ¬SharesName user other
  identities : file.users.Pairwise fun user other => ¬SharesIdentity user other

variable {file : AuthFile} {seen seen' : BackupSeen} {algorithm : String → Option String}
  {user : AdminUserRecord}

theorem AuthInner.load_apart {R : AdminUserRecord → AdminUserRecord → Prop}
    (h : file.users.Pairwise fun user other => ¬R user other) (hsymm : ∀ a b, R a b → R b a) :
    (load file).users.Apart R := by
  intro _ _ user _ hfound hfound' hR
  obtain ⟨_, hsource, heq⟩ := NameMap.exists_of_lookup_collect hfound
  obtain ⟨_, hsource', heq'⟩ := NameMap.exists_of_lookup_collect hfound'
  cases heq
  cases heq'
  by_contra hne
  have : Std.Symm fun user other => ¬R user other := ⟨fun a b hab hba => hab (hsymm b a hba)⟩
  exact h.forall hsource hsource' (fun hsame => hne (by rw [hsame])) hR

theorem AuthInner.load_consistent (h : file.Valid) : Consistent (load file) where
  admin := by
    obtain ⟨user, huser, hactive⟩ := h.admin
    have hfound := NameMap.lookup_collect_of_nodup (fun user => (user.id, user))
      h.ids huser
    exact ⟨user.id, user, hfound, hactive⟩
  usernames := load_apart h.usernames sharesName_symm
  identities := load_apart h.identities sharesIdentity_symm
  sessions := .empty

/-! ### What the check of a backup accepts -/

/-- What `validate_federated_identifier` reads an identity as. -/
def FederatedIdentity.trimmed (identity : FederatedIdentity) : FederatedIdentity :=
  ⟨trim identity.issuer, trim identity.subject⟩

theorem validateFederatedIdentifier_eq_ok {field value result : String} {maxBytes : ℕ}
    (h : validateFederatedIdentifier field value maxBytes = .ok result) : result = trim value := by
  simp only [validateFederatedIdentifier, bind_eq_ok_iff] at h
  obtain ⟨_, -, h⟩ := h
  exact pure_eq_ok.mp h

theorem checkIdentity_seen {identity : FederatedIdentity}
    (h : checkIdentity seen identity = .ok seen') : identity.trimmed ∉ seen.federatedIdentities ∧
      seen' = { seen with
        federatedIdentities := identity.trimmed :: seen.federatedIdentities } := by
  simp only [checkIdentity, bind_eq_ok_iff, refuseIf_eq_ok] at h
  obtain ⟨_, hissuer, _, hsubject, _, hnew, h⟩ := h
  obtain rfl := validateFederatedIdentifier_eq_ok hissuer
  obtain rfl := validateFederatedIdentifier_eq_ok hsubject
  exact ⟨hnew, pure_eq_ok.mp h⟩

theorem foldlM_checkIdentity_seen {identities : List FederatedIdentity}
    (h : identities.foldlM checkIdentity seen = .ok seen') :
    (∀ identity ∈ identities, identity.trimmed ∉ seen.federatedIdentities) ∧
      seen' = { seen with federatedIdentities :=
        (identities.map .trimmed).reverse ++ seen.federatedIdentities } := by
  induction identities generalizing seen with
  | nil =>
    obtain rfl := pure_eq_ok.mp h
    exact ⟨by simp, rfl⟩
  | cons _ _ ih =>
    rw [foldlM_cons, bind_eq_ok_iff] at h
    obtain ⟨_, hnext, h⟩ := h
    obtain ⟨hnew, rfl⟩ := checkIdentity_seen hnext
    obtain ⟨hrest, rfl⟩ := ih h
    exact ⟨forall_mem_cons.mpr ⟨hnew, fun _ hother hmem =>
      hrest _ hother (mem_cons_of_mem _ hmem)⟩, by simp⟩

/-- What one user adds to what the check has seen. -/
structure Seen (seen : BackupSeen) (user : AdminUserRecord) (seen' : BackupSeen) : Prop where
  id : user.id ∉ seen.ids
  username : toAsciiLowercase (trim user.username) ∉ seen.usernames
  identities : ∀ identity ∈ user.federatedIdentities, identity.trimmed ∉ seen.federatedIdentities
  next : seen' = {
    ids := user.id :: seen.ids
    usernames := toAsciiLowercase (trim user.username) :: seen.usernames
    federatedIdentities := (user.federatedIdentities.map FederatedIdentity.trimmed).reverse ++
      seen.federatedIdentities
    activeAdmins := seen.activeAdmins + if isActiveAdmin user then 1 else 0 }

theorem checkBackupUser_seen (h : checkBackupUser algorithm seen user = .ok seen') :
    Seen seen user seen' := by
  simp only [checkBackupUser, bind_eq_ok_iff, refuseIf_eq_ok] at h
  obtain ⟨_, hid, _, husername, _, hname, _, -, _, -, _, -, _, -, _, -, _, hnext, h⟩ := h
  simp only [normalizeUsername, bind_eq_ok_iff] at husername
  obtain ⟨_, -, _, -, husername⟩ := husername
  obtain rfl := pure_eq_ok.mp husername
  obtain ⟨hidentities, rfl⟩ := foldlM_checkIdentity_seen hnext
  exact ⟨fun hmem => hid (.inr hmem), hname, hidentities, pure_eq_ok.mp h⟩

/-- Two users that the check tells apart. -/
structure ToldApart (user other : AdminUserRecord) : Prop where
  id : user.id ≠ other.id
  username : toAsciiLowercase (trim user.username) ≠ toAsciiLowercase (trim other.username)
  identities : ∀ identity ∈ user.federatedIdentities, ∀ shared ∈ other.federatedIdentities,
    identity.trimmed ≠ shared.trimmed

theorem foldlM_checkBackupUser {users : List AdminUserRecord}
    (h : users.foldlM (checkBackupUser algorithm) seen = .ok seen') :
    (∀ user ∈ users, ∃ next, Seen seen user next) ∧ users.Pairwise ToldApart ∧
      (seen'.activeAdmins ≠ seen.activeAdmins → ∃ user ∈ users, isActiveAdmin user = true) := by
  induction users generalizing seen with
  | nil =>
    obtain rfl := pure_eq_ok.mp h
    exact ⟨by simp, .nil, by simp⟩
  | cons user users ih =>
    rw [foldlM_cons, bind_eq_ok_iff] at h
    obtain ⟨next, hnext, h⟩ := h
    have huser := checkBackupUser_seen hnext
    obtain ⟨hrest, hapart, hadmins⟩ := ih h
    rw [huser.next] at hrest hadmins
    refine ⟨?_, pairwise_cons.mpr ⟨?_, hapart⟩, ?_⟩
    · intro other hother
      rcases mem_cons.mp hother with rfl | hother
      · exact ⟨next, huser⟩
      · obtain ⟨_, hafter⟩ := hrest _ hother
        exact ⟨_, fun hmem => hafter.id (mem_cons_of_mem _ hmem),
          fun hmem => hafter.username (mem_cons_of_mem _ hmem),
          fun _ hidentity hmem =>
            hafter.identities _ hidentity (mem_append_right _ hmem), rfl⟩
    · intro _ hother
      obtain ⟨_, hafter⟩ := hrest _ hother
      refine ⟨?_, ?_, ?_⟩
      · intro heq
        exact hafter.id (mem_cons.mpr (.inl heq.symm))
      · intro heq
        exact hafter.username (mem_cons.mpr (.inl heq.symm))
      · intro _ hidentity _ hshared heq
        refine hafter.identities _ hshared (mem_append_left _ ?_)
        rw [← heq, mem_reverse]
        exact mem_map_of_mem hidentity
    · intro hne
      by_cases hactive : isActiveAdmin user = true
      · exact ⟨user, mem_cons_self, hactive⟩
      · obtain ⟨admin, hadmin, hisadmin⟩ := hadmins (by simpa [hactive] using hne)
        exact ⟨admin, mem_cons_of_mem _ hadmin, hisadmin⟩

theorem ToldApart.not_sharesName {other : AdminUserRecord} (h : ToldApart user other) :
    ¬SharesName user other := by
  intro hshares
  rw [SharesName, eqIgnoreAsciiCase, beq_iff_eq] at hshares
  refine h.username ?_
  rw [toAsciiLowercase_trim, toAsciiLowercase_trim, hshares]

theorem ToldApart.not_sharesIdentity {other : AdminUserRecord} (h : ToldApart user other) :
    ¬SharesIdentity user other := by
  rintro ⟨_, hidentity, hshared⟩
  exact h.identities _ hidentity _ hshared rfl

/-- A document with users that the check accepts is valid. -/
theorem AuthFile.valid_of_validateBackupDocument
    (h : validateBackupDocument algorithm file = .ok ()) (husers : file.users ≠ []) :
    file.Valid := by
  simp only [validateBackupDocument, bind_eq_ok_iff, refuseIf_eq_ok] at h
  obtain ⟨_, hseen, hadmins⟩ := h
  obtain ⟨-, hapart, hadmin⟩ := foldlM_checkBackupUser hseen
  exact {
    ids := pairwise_map.mpr (hapart.imp (·.id))
    admin := hadmin fun hzero => hadmins ⟨husers, hzero⟩
    usernames := hapart.imp (·.not_sharesName)
    identities := hapart.imp fun h => h.not_sharesIdentity }

/-! ## Runs -/

/-- The ids drawn for new users are new. -/
def AuthSystem.DrawsFresh (s : AuthSystem) (a : AuthAction × Except AppError Unit) : Prop :=
  ∀ id ∈ a.1.newId?, id ∉ s.inner.users

/-- From a valid document on, however the parts of the operations follow each other and whatever
the store answers, the accounts are consistent. -/
theorem accounts_consistent {env : AuthEnv} {file : AuthFile} (hfile : file.Valid)
    {actions : List (AuthAction × Except AppError Unit)}
    (hfresh : Meets (AuthSystem.step env) AuthSystem.DrawsFresh (.start file) actions) :
    Consistent (runs (AuthSystem.step env) (.start file) actions).inner := by
  refine runs_invariant_of_meets (I := fun s => Consistent _) ?_ hfresh
    (load_consistent hfile)
  intro s a hdraws hs
  exact hs.effects (AuthSystem.step_effects env s _ _) hdraws

/-- A document with one admin, and passwords that are kept as they are. -/
def ownerFile : AuthFile where
  users := [{
    id := "usr_0", username := "owner", email := "owner@local", role := "admin", status := "active"
    passwordHash := "correct-horse-battery", createdAtMs := 0, updatedAtMs := 0 }]

/-- The owner and a member, with identities of one issuer. -/
def teamFile : AuthFile where
  users := [{
      id := "usr_0", username := "owner", email := "owner@local", role := "admin"
      status := "active", passwordHash := "correct-horse-battery", createdAtMs := 0
      updatedAtMs := 0
      federatedIdentities := [⟨"sso", "owner"⟩, ⟨"sso", "root"⟩] }, {
      id := "usr_1", username := "member", email := "member@local", role := "viewer"
      status := "active", passwordHash := "wrong-mule-charger", createdAtMs := 0, updatedAtMs := 0
      federatedIdentities := [⟨"sso", "member"⟩] }]

theorem teamFile_restorable :
    validateBackupDocument (fun _ => some "argon2id") teamFile = .ok () ∧ teamFile.Valid :=
  have h : validateBackupDocument (fun _ => some "argon2id") teamFile = .ok () := by decide
  ⟨h, AuthFile.valid_of_validateBackupDocument h (by decide)⟩

def plainEnv : AuthEnv where
  verifyPassword password passwordHash := password == passwordHash
  hashSessionToken := id
  sessionTtlSeconds := 60

def createAlice : AuthAction :=
  .createUser ⟨"alice", "alice@local", "wrong-mule-charger", none, none⟩
    (.ok "wrong-mule-charger") 1 "1"

theorem owner_accounts_consistent :
    let actions : List (AuthAction × Except AppError Unit) :=
      [(createAlice, .ok ()), (.beginLogin 0 ⟨"Owner", "correct-horse-battery"⟩ 2, .ok ()),
        (.deleteUser "usr_1" "usr_0", .error (.stateConflict "")), (.finishLogin 0 "mps_1", .ok ())]
    ownerFile.Valid ∧
      (runs (AuthSystem.step plainEnv) (.start ownerFile) actions).inner.sessions.keys = ["mps_1"] ∧
      Consistent (runs (AuthSystem.step plainEnv) (.start ownerFile) actions).inner := by
  have hvalid : ownerFile.Valid :=
    ⟨by decide, ⟨_, mem_singleton_self _, by decide⟩, pairwise_singleton _ _,
      pairwise_singleton _ _⟩
  refine ⟨hvalid, by decide, accounts_consistent hvalid ⟨?_, nofun, nofun, nofun, trivial⟩⟩
  intro _ hid
  cases hid
  decide

end RouteSmith.Model
