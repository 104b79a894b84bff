import RouteSmith.Control.Runs
import RouteSmith.Model.AuthStore
import Mathlib.Logic.Relation

/-! # What an operation does to users and sessions

Each hold of the auth store's lock amounts to a few effects on the users and their sessions; a save
that is refused leaves out the last ones.
-/

namespace RouteSmith.Model

open Store Text AuthInner

/-- The token that an operation has drawn for a session. -/
def AuthAction.token? : AuthAction → Option String
  | .finishLogin _ token => some token
  | .beginFederated _ _ _ token => some token
  | .finishFederated _ _ _ token => some token
  | _ => none

/-- The id that an operation has drawn for a user. -/
def AuthAction.newId? : AuthAction → Option String
  | .finishFederated _ _ uuid _ => some ("usr_" ++ uuid)
  | .createUser _ _ _ uuid => some ("usr_" ++ uuid)
  | _ => none

/-- One map of sessions is part of another. -/
def Within (sessions all : NameMap AdminSession) : Prop :=
  sessions.Each fun hash session => all.lookup hash = some session

theorem Within.refl (sessions : NameMap AdminSession) : Within sessions sessions := fun _ _ h => h

theorem Within.retain (sessions : NameMap AdminSession) (keep : String → AdminSession → Bool) :
    Within (sessions.retain keep) sessions :=
  NameMap.Each.retain (refl _) keep

theorem Within.erase (sessions : NameMap AdminSession) (hash : String) :
    Within (sessions.erase hash) sessions :=
  NameMap.Each.erase (refl _) hash

/-- No user is bound to an identity. -/
def Unbound (users : NameMap AdminUserRecord) (identity : FederatedIdentity) : Prop :=
  users.Each fun _ user => identity ∉ user.federatedIdentities

/-- No user has a name, however it is spelled. -/
def Unnamed (users : NameMap AdminUserRecord) (username : String) : Prop :=
  users.Each fun _ user => eqIgnoreAsciiCase user.username username = false

/-- Two records of one user with the same name, rights and identities. -/
structure SameAccount (user changed : AdminUserRecord) : Prop where
  id : changed.id = user.id
  username : changed.username = user.username
  role : changed.role = user.role
  status : changed.status = user.status
  federatedIdentities : changed.federatedIdentities = user.federatedIdentities

theorem SameAccount.noteLogin (user : AdminUserRecord) (nowMs : ℕ) :
    SameAccount user { user with lastLoginAtMs := some nowMs, updatedAtMs := nowMs } :=
  ⟨rfl, rfl, rfl, rfl, rfl⟩

/-- An effect on the state; `users` are the users before the operation. -/
inductive Effect (env : AuthEnv) (a : AuthAction) (users : NameMap AdminUserRecord)
    (s t : AuthInner) : Prop
  /-- Sessions end. -/
  | lapse (husers : t.users = s.users) (hsessions : Within t.sessions s.sessions)
  /-- An active user gets a session. -/
  | issue {userId token : String} {user changed : AdminUserRecord} {session : AdminSession}
    (huser : s.users.lookup userId = some user) (hactive : user.status = "active")
    (hsame : SameAccount user changed) (htoken : a.token? = some token)
    (hsession : session.userId = userId) (husers : t.users = s.users.insert userId changed)
    (hsessions : t.sessions = s.sessions.insert (env.hashSessionToken token) session)
  /-- An identity is bound to a user. -/
  | bind {userId : String} {user : AdminUserRecord} {identity : FederatedIdentity}
    (huser : s.users.lookup userId = some user) (hunbound : Unbound s.users identity)
    (husers : t.users = s.users.insert userId
      { user with federatedIdentities := user.federatedIdentities ++ [identity] })
    (hsessions : t.sessions = s.sessions)
  /-- A user with a new name is added to the users as they were. -/
  | add {user : AdminUserRecord} (hstart : s.users = users) (hid : a.newId? = some user.id)
    (hname : Unnamed s.users user.username)
    (hunbound : ∀ identity ∈ user.federatedIdentities, Unbound s.users identity)
    (husers : t.users = s.users.insert user.id user) (hsessions : t.sessions = s.sessions)
  /-- A user is changed, and an active admin is left. -/
  | revise {userId : String} {user changed : AdminUserRecord}
    (huser : s.users.lookup userId = some user) (hid : changed.id = user.id)
    (hname : changed.username = user.username)
    (hidentities : changed.federatedIdentities = user.federatedIdentities)
    (hadmin : ∃ id admin, t.users.lookup id = some admin ∧ isActiveAdmin admin = true)
    (husers : t.users = s.users.insert userId changed) (hsessions : t.sessions = s.sessions)
  /-- A user is removed with all sessions; an admin only if two are active. -/
  | remove {userId : String} {user : AdminUserRecord} (huser : s.users.lookup userId = some user)
    (hadmins : user.role = "admin" → 1 < s.users.values.countP isActiveAdmin)
    (husers : t.users = s.users.erase userId) (hsessions : Within t.sessions s.sessions)
    (hcleared : t.sessions.Each fun _ session => session.userId ≠ userId)

/-- Some effects, one after the other. -/
abbrev Effects (env : AuthEnv) (a : AuthAction) (s t : AuthInner) : Prop :=
  Relation.ReflTransGen (Effect env a s.users) s t

/-! ## What every effect keeps -/

/-- Every session belongs to a user. -/
def Owned (s : AuthInner) : Prop := s.sessions.Each fun _ session => session.userId ∈ s.users

section

variable {env : AuthEnv} {a : AuthAction} {s t : AuthInner} {users : NameMap AdminUserRecord}

theorem Owned.insert (h : Owned s) (userId : String) (user : AdminUserRecord) :
    s.sessions.Each fun _ session => session.userId ∈ s.users.insert userId user := by
  intro hash _ hsession
  exact (AList.mem_insert _).mpr (.inr (h hash _ hsession))

theorem Effect.owned (heffect : Effect env a users s t) (h : Owned s) : Owned t := by
  unfold Owned
  cases heffect with
  | lapse husers hsessions =>
    rw [husers]
    intro hash session hsession
    exact h hash _ (hsessions hash _ hsession)
  | issue _ _ _ _ hsession husers hsessions =>
    rw [husers, hsessions]
    exact .insert (h.insert _ _) ((AList.mem_insert _).mpr (.inl hsession))
  | bind _ _ husers hsessions | add _ _ _ _ husers hsessions
  | revise _ _ _ _ _ husers hsessions =>
    rw [husers, hsessions]
    exact h.insert _ _
  | remove _ _ husers hsessions hcleared =>
    rw [husers]
    intro hash _ hsession
    refine AList.mem_erase.mpr ⟨hcleared hash _ hsession, ?_⟩
    exact h hash _ (hsessions hash _ hsession)

theorem Effect.session_before {hash : String} (heffect : Effect env a users s t)
    (htoken : ∀ token ∈ a.token?, env.hashSessionToken token ≠ hash) {session : AdminSession}
    (h : t.sessions.lookup hash = some session) : s.sessions.lookup hash = some session := by
  cases heffect with
  | lapse _ hsessions | remove _ _ _ hsessions => exact hsessions hash session h
  | issue _ _ _ hdrawn _ _ hsessions =>
    rwa [hsessions, AList.lookup_insert_ne (htoken _ hdrawn).symm] at h
  | bind _ _ _ hsessions | add _ _ _ _ _ hsessions | revise _ _ _ _ _ _ hsessions =>
    rwa [hsessions] at h

end

/-! ## The operations -/

namespace AuthInner

variable {env : AuthEnv} {a : AuthAction} {s inner previous : AuthInner}

theorem effects_pruneExpiredSessions (env : AuthEnv) (a : AuthAction) (s : AuthInner) (nowMs : ℕ) :
    Effects env a s (s.pruneExpiredSessions nowMs) :=
  .single (.lapse rfl (.retain _ _))

theorem effects_attempts (h : Effects env a s inner) (attempts : NameMap LoginAttempt) :
    Effects env a s { inner with attempts } :=
  h.tail (.lapse rfl (.refl _))

theorem effects_saveOrRestore {α : Type} (hinner : Effects env a s inner)
    (hprevious : Effects env a s previous) (saved : Except AppError Unit) (result : α) :
    Effects env a s (saveOrRestore saved inner previous result).2 := by
  cases saved with
  | ok => exact hinner
  | error => exact hprevious

variable {token userId : String} {user : AdminUserRecord}

theorem effects_issue (h : Effects env a s inner) (huser : inner.users.lookup userId = some user)
    (hactive : user.status = "active") (htoken : a.token? = some token) (nowMs : ℕ) :
    Effects env a s ((inner.noteLogin user userId nowMs).issueSession env userId token nowMs) :=
  h.tail (.issue huser hactive (.noteLogin user _) htoken rfl rfl rfl)

theorem effects_add (h : Effects env a s inner) (hstart : inner.users = s.users)
    (user : AdminUserRecord) (hid : a.newId? = some user.id)
    (hname : Unnamed inner.users user.username)
    (hunbound : ∀ identity ∈ user.federatedIdentities, Unbound inner.users identity) :
    Effects env a s { inner with users := inner.users.insert user.id user } :=
  h.tail (.add hstart hid hname hunbound rfl rfl)

theorem effects_finishFederatedLogin (hinner : Effects env a s inner)
    (hprevious : Effects env a s previous) (htoken : a.token? = some token) (userId : String)
    (nowMs : ℕ) (saved : Except AppError Unit) :
    Effects env a s (inner.finishFederatedLogin env previous userId nowMs token saved).2 := by
  unfold finishFederatedLogin
  split
  · exact hinner
  rename_i user huser
  split_ifs with hactive
  · exact hinner
  · exact effects_saveOrRestore
      (effects_issue hinner huser (not_not.mp hactive) htoken _) hprevious _ _

theorem effects_beginLogin (input : LoginInput) (nowMs : ℕ) :
    Effects env a s (s.beginLogin input nowMs).2 := by
  have hpruned := effects_pruneExpiredSessions env a s nowMs
  unfold beginLogin
  split
  · exact .refl
  split_ifs
  · exact .refl
  dsimp only
  split_ifs
  · exact effects_attempts hpruned _
  · exact effects_attempts hpruned _

theorem effects_finishLogin (call : LoginCall) (htoken : a.token? = some token)
    (saved : Except AppError Unit) : Effects env a s (s.finishLogin env call token saved).2 := by
  have hpruned := effects_pruneExpiredSessions env a s call.nowMs
  unfold finishLogin
  dsimp only
  split
  · exact effects_attempts hpruned _
  split
  · exact effects_attempts hpruned _
  rename_i user huser
  split_ifs with hrefused
  · exact effects_attempts hpruned _
  · exact hpruned
  · have herased := effects_attempts hpruned
      ((s.pruneExpiredSessions call.nowMs).attempts.erase call.username)
    have hactive : user.status = "active" := by
      by_contra hne
      exact hrefused (.inr fun hcurrent => hne hcurrent.1)
    exact effects_saveOrRestore (effects_issue herased huser hactive htoken _) herased
      saved _

theorem unbound_of_boundUserId {identity : FederatedIdentity}
    (h : inner.boundUserId identity = .ok none) : Unbound inner.users identity := by
  rw [boundUserId] at h
  split at h
  next hfilter =>
    intro _ _ huser hmem
    have hbound := List.filter_eq_nil_iff.mp hfilter _ (NameMap.mem_ordered.mpr huser)
    exact hbound (by simpa using hmem)
  · cases h
  · cases h

theorem unnamed_of_takenBy {username email : String} (h : inner.takenBy username email = false) :
    Unnamed inner.users username := by
  intro id user huser
  have hfree := List.any_eq_false.mp h user (NameMap.mem_values.mpr ⟨id, huser⟩)
  simp only [Bool.or_eq_true, not_or] at hfree
  simpa using hfree.1

theorem effects_bindByEmail (h : Effects env a s inner) {identity : FederatedIdentity}
    (hunbound : Unbound inner.users identity) (huser : inner.users.lookup userId = some user)
    (nowMs : ℕ) (htoken : a.token? = some token) (saved : Except AppError Unit) :
    Effects env a s (inner.bindByEmail env identity userId user nowMs token saved).2 := by
  unfold bindByEmail
  split_ifs
  · exact h
  · refine effects_finishFederatedLogin (h.tail ?_) h htoken _ _ _
    exact .bind huser hunbound rfl rfl

theorem effects_beginFederated (input : FederatedLoginInput) (nowMs : ℕ)
    (htoken : a.token? = some token) (saved : Except AppError Unit) :
    Effects env a s (s.beginFederated env input nowMs token saved).2 := by
  have hpruned := effects_pruneExpiredSessions env a s nowMs
  unfold beginFederated
  generalize s.pruneExpiredSessions nowMs = inner at hpruned
  cases readIdentity input with
  | error => exact .refl
  | ok identity =>
    dsimp only
    cases hbound : inner.boundUserId identity with
    | error => exact hpruned
    | ok found =>
      cases found with
      | some userId => exact effects_finishFederatedLogin hpruned hpruned htoken userId nowMs saved
      | none =>
        cases verifiedEmail input with
        | error => exact hpruned
        | ok email =>
          dsimp only
          split
          · exact hpruned
          next userId user hmatches =>
            have hmem : (userId, user) ∈ inner.users.ordered.filter fun entry =>
                eqIgnoreAsciiCase entry.2.email email := by
              rw [hmatches]
              exact List.mem_singleton_self _
            exact effects_bindByEmail hpruned (unbound_of_boundUserId hbound)
              (NameMap.mem_ordered.mp (List.mem_of_mem_filter hmem)) _ htoken _
          · cases inner.readProvision input identity email nowMs with
            | error | ok => exact hpruned

theorem effects_finishFederated (call : FederatedCall) (passwordHash : String) {uuid : String}
    (htoken : a.token? = some token) (hid : a.newId? = some ("usr_" ++ uuid))
    (saved : Except AppError Unit) :
    Effects env a s (s.finishFederated env call passwordHash uuid token saved).2 := by
  have hpruned := effects_pruneExpiredSessions env a s call.nowMs
  unfold finishFederated
  dsimp only
  split
  · exact hpruned
  · exact effects_finishFederatedLogin hpruned hpruned htoken _ _ _
  rename_i hunbound
  split_ifs with htaken
  · exact hpruned
  · have hname := unnamed_of_takenBy (Bool.eq_false_iff.mpr htaken)
    have hadded := effects_add hpruned rfl (provisionedUser call passwordHash uuid) hid hname
      fun _ hidentity => by
        rw [List.mem_singleton.mp hidentity]
        exact unbound_of_boundUserId hunbound
    exact effects_finishFederatedLogin hadded hpruned htoken _ _ _

theorem effects_createUser (input : CreateUserInput) (hashed : Except AppError String) (nowMs : ℕ)
    {uuid : String} (hid : a.newId? = some ("usr_" ++ uuid)) (saved : Except AppError Unit) :
    Effects env a s (s.createUser input hashed nowMs uuid saved).2 := by
  unfold createUser
  split
  · exact .refl
  rename_i user hread
  split_ifs with htaken
  · exact .refl
  simp only [readUser, bind_eq_ok_iff] at hread
  obtain ⟨_, -, _, -, _, -, _, -, _, -, _, -, hread⟩ := hread
  obtain rfl := pure_eq_ok.mp hread
  refine effects_saveOrRestore (effects_add .refl rfl _ hid ?_ (by simp)) .refl _ _
  intro id _ hexisting
  have hfree := List.any_eq_false.mp (Bool.not_eq_true _ ▸ htaken) _
    (NameMap.mem_values.mpr ⟨id, hexisting⟩)
  simpa using hfree

/-- The count of `update_user` is that of the changed users. -/
theorem exists_admin_after {users : NameMap AdminUserRecord} (h : users.entries.countP (fun entry =>
      if entry.1 = userId then isActiveAdmin user else isActiveAdmin entry.2) ≠ 0) :
    ∃ id admin, (users.insert userId user).lookup id = some admin ∧ isActiveAdmin admin = true := by
  obtain ⟨⟨id, other⟩, hentry, hadmin⟩ := List.countP_pos_iff.mp (pos_of_ne_zero h)
  by_cases hid : id = userId
  · exact ⟨userId, user, AList.lookup_insert _, by simpa [hid] using hadmin⟩
  · refine ⟨id, other, ?_, by simpa [hid] using hadmin⟩
    rw [AList.lookup_insert_ne hid]
    exact AList.mem_lookup_iff.mpr hentry

theorem effects_updateUser (userId currentUserId : String) (input : UpdateUserInput)
    (hashed : Except AppError String) (nowMs : ℕ) (saved : Except AppError Unit) :
    Effects env a s (s.updateUser userId currentUserId input hashed nowMs saved).2 := by
  unfold updateUser
  split
  · exact .refl
  rename_i change _
  split
  · exact .refl
  rename_i existing hexisting
  dsimp only
  split_ifs with hself hlast
  · exact .refl
  · exact .refl
  all_goals
    have hrevised : Effects env a s { s with
        users := s.users.insert userId (change.apply existing nowMs) } := by
      refine .single (.revise hexisting ?_ ?_ ?_ (exists_admin_after hlast) rfl rfl)
      · rfl
      · rfl
      · rfl
  · refine effects_saveOrRestore (hrevised.tail ?_) .refl _ _
    exact .lapse rfl (.retain _ _)
  · exact effects_saveOrRestore hrevised .refl _ _

theorem clearSessions_cleared (s : AuthInner) (userId : String) :
    (s.clearSessions userId).sessions.Each fun _ session => session.userId ≠ userId := by
  intro _ _ hsession
  rw [clearSessions, NameMap.lookup_retain, Option.filter_eq_some_iff] at hsession
  simpa using hsession.2

theorem effects_deleteUser (userId currentUserId : String) (saved : Except AppError Unit) :
    Effects env a s (s.deleteUser userId currentUserId saved).2 := by
  unfold deleteUser
  split_ifs
  · exact .refl
  split
  · exact .refl
  rename_i user huser
  split_ifs with hlast
  · exact .refl
  · refine effects_saveOrRestore (.single ?_) .refl _ ()
    refine .remove huser ?_ rfl (.retain _ _) ?_
    · intro hadmin
      by_contra hfew
      exact hlast ⟨hadmin, by omega⟩
    · exact clearSessions_cleared s _

theorem effects_requireSession (headers : String → Option String) (nowMs : ℕ) :
    Effects env a s (s.requireSession env headers nowMs).2 := by
  have hpruned := effects_pruneExpiredSessions env a s nowMs
  unfold requireSession
  split
  · exact .refl
  dsimp only
  split
  · exact hpruned
  split_ifs
  · exact hpruned.tail (.lapse rfl (.erase _ _))
  split
  · exact hpruned
  split_ifs
  · exact hpruned
  · exact hpruned

theorem effects_logout (headers : String → Option String) :
    Effects env a s (s.logout env headers) := by
  unfold logout
  split
  · exact .refl
  · exact .single (.lapse rfl (.erase _ _))

end AuthInner

namespace AuthSystem

variable {env : AuthEnv} {s : AuthSystem} {saved : Except AppError Unit}

theorem step_beginLogin_inner (call : ℕ) (input : LoginInput) (nowMs : ℕ) :
    (s.step env (.beginLogin call input nowMs, saved)).inner =
      (s.inner.beginLogin input nowMs).2 := by
  unfold step stepResult
  dsimp only
  split <;> simp_all only

theorem step_finishLogin_inner {call : ℕ} {begun : LoginCall} (h : s.logins call = some begun)
    (token : String) : (s.step env (.finishLogin call token, saved)).inner =
      (s.inner.finishLogin env begun token saved).2 := by
  unfold step stepResult
  simp [h]

theorem step_beginFederated_inner (call : ℕ) (input : FederatedLoginInput) (nowMs : ℕ)
    (token : String) : (s.step env (.beginFederated call input nowMs token, saved)).inner =
      (s.inner.beginFederated env input nowMs token saved).2 := by
  unfold step stepResult
  dsimp only
  split <;> simp_all only

theorem step_effects (env : AuthEnv) (s : AuthSystem) (a : AuthAction)
    (saved : Except AppError Unit) : Effects env a s.inner (s.step env (a, saved)).inner := by
  cases a with
  | beginLogin call input nowMs =>
    rw [step_beginLogin_inner]
    exact effects_beginLogin _ _
  | finishLogin =>
    unfold step stepResult
    dsimp only
    split
    · exact .refl
    · exact effects_finishLogin _ rfl _
  | beginFederated call input nowMs =>
    rw [step_beginFederated_inner]
    exact effects_beginFederated _ _ rfl _
  | finishFederated =>
    unfold step stepResult
    dsimp only
    split
    · exact .refl
    · exact .refl
    · exact effects_finishFederated _ _ rfl rfl _
  | createUser input hashed nowMs =>
    exact effects_createUser _ hashed _ rfl _
  | updateUser userId currentUserId input hashed nowMs =>
    exact effects_updateUser _ _ _ hashed _ _
  | deleteUser userId currentUserId =>
    exact effects_deleteUser _ _ _
  | logout headers => exact effects_logout headers
  | requireSession headers nowMs => exact effects_requireSession headers nowMs

end AuthSystem

end RouteSmith.Model
