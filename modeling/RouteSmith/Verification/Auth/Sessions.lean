import RouteSmith.Verification.Auth.Accounts

/-! # Sessions under interleaved operations

A password is checked outside the lock, on a copy. The session is issued only if the copy still
agrees with the user, and none outlives a change that shuts its user out.
-/

namespace RouteSmith.Model

open Control Store Text List AuthInner AuthSystem

/-! ## Issuing -/

variable {env : AuthEnv} {s : AuthInner}

/-- A login ends well only if the user is active and the password fits the hash that is stored. -/
theorem AuthInner.finishLogin_ok {call : LoginCall} {token : String} {saved : Except AppError Unit}
    {result : LoginResult} (h : (s.finishLogin env call token saved).1 = .ok result) :
    ∃ userId user session, s.users.lookup userId = some user ∧ user.status = "active" ∧
      env.verifyPassword call.password user.passwordHash = true ∧
      (s.finishLogin env call token saved).2.sessions.lookup (env.hashSessionToken token) =
        some session ∧ session.userId = userId := by
  unfold finishLogin at h ⊢
  cases hcandidate : call.candidate with
  | none =>
    rw [hcandidate] at h
    cases h
  | some candidate =>
    obtain ⟨userId, candidate⟩ := candidate
    rw [hcandidate] at h
    dsimp only at h ⊢
    cases huser : (s.pruneExpiredSessions call.nowMs).users.lookup userId with
    | none =>
      rw [huser] at h
      cases h
    | some user =>
      rw [huser] at h
      dsimp only at h ⊢
      by_cases hrefused : ¬(candidate.status = "active" ∧
          env.verifyPassword call.password candidate.passwordHash = true) ∨
          ¬(user.status = "active" ∧ eqIgnoreAsciiCase user.username call.username = true ∧
            user.passwordHash = candidate.passwordHash)
      · rw [if_pos hrefused] at h
        cases h
      · obtain ⟨hverified, hcurrent⟩ := not_or.mp hrefused
        obtain ⟨-, hverified⟩ := not_not.mp hverified
        obtain ⟨hactive, -, hhash⟩ := not_not.mp hcurrent
        split_ifs at h ⊢
        cases saved with
        | error => cases h
        | ok =>
          refine ⟨userId, user, _, huser, hactive, ?_, AList.lookup_insert _, rfl⟩
          rw [hhash]
          exact hverified

theorem AuthInner.beginLogin_password {input : LoginInput} {nowMs : ℕ} {call : LoginCall}
    (h : (s.beginLogin input nowMs).1 = .ok call) : call.password = input.password := by
  unfold beginLogin at h
  split at h
  · cases h
  dsimp only at h
  split_ifs at h
  cases h
  rfl

/-! ## Shutting a user out -/

/-- The operation has changed the password of a user, disabled it or deleted it. -/
inductive Shuts (s : AuthInner) (userId : String) : AuthAction × Except AppError Unit → Prop
  | changePassword {currentUserId password : String} {input : UpdateUserInput}
    {hashed : Except AppError String} {nowMs : ℕ} {saved : Except AppError Unit}
    {user : AdminUserRecord}
    (hok : (s.updateUser userId currentUserId input hashed nowMs saved).1 = .ok user)
    (hgiven : input.password = some password) (hfull : isEmpty password = false) :
    Shuts s userId (.updateUser userId currentUserId input hashed nowMs, saved)
  | disable {currentUserId : String} {input : UpdateUserInput} {hashed : Except AppError String}
    {nowMs : ℕ} {saved : Except AppError Unit} {user : AdminUserRecord}
    (hok : (s.updateUser userId currentUserId input hashed nowMs saved).1 = .ok user)
    (hdisabled : user.status ≠ "active") :
    Shuts s userId (.updateUser userId currentUserId input hashed nowMs, saved)
  | delete {currentUserId : String} {saved : Except AppError Unit}
    (hok : (s.deleteUser userId currentUserId saved).1 = .ok ()) :
    Shuts s userId (.deleteUser userId currentUserId, saved)

namespace AuthInner

variable {s : AuthInner} {userId currentUserId : String} {saved : Except AppError Unit}

/-- An update that went well and gives a password or leaves the user inactive ends the user's
sessions. -/
theorem updateUser_cleared {input : UpdateUserInput} {hashed : Except AppError String} {nowMs : ℕ}
    {user : AdminUserRecord}
    (hok : (s.updateUser userId currentUserId input hashed nowMs saved).1 = .ok user)
    (hshut : (∃ password, input.password = some password ∧ isEmpty password = false) ∨
      user.status ≠ "active") :
    (s.updateUser userId currentUserId input hashed nowMs saved).2.sessions.Each
      fun _ session => session.userId ≠ userId := by
  unfold updateUser at hok ⊢
  cases hread : readUserChange input hashed with
  | error =>
    rw [hread] at hok
    cases hok
  | ok =>
    rw [hread] at hok
    cases hexisting : s.users.lookup userId with
    | none =>
      rw [hexisting] at hok
      cases hok
    | some =>
      rw [hexisting] at hok
      dsimp only at hok ⊢
      split_ifs at hok with hself hlast hclears
      · rw [if_neg hself, if_neg hlast, if_pos hclears]
        cases saved with
        | error => cases hok
        | ok => exact clearSessions_cleared _ userId
      · exfalso
        cases saved with
        | error => cases hok
        | ok =>
          cases hok
          simp only [Bool.or_eq_true, bne_iff_ne, not_or, not_not] at hclears
          rcases hshut with ⟨password, hgiven, hfull⟩ | hdisabled
          · simp only [readUserChange, bind_eq_ok_iff] at hread
            obtain ⟨_, -, _, -, _, -, _, hpassword, hread⟩ := hread
            obtain rfl := pure_eq_ok.mp hread
            simp only [hgiven, Option.filter_some, hfull, Bool.not_false, if_true,
              checkGiven] at hpassword
            cases hhash : (do validatePasswordStrength password; hashed) with
            | error =>
              rw [hhash] at hpassword
              cases hpassword
            | ok =>
              rw [hhash] at hpassword
              cases hpassword
              exact hclears.1 rfl
          · exact hdisabled hclears.2

theorem deleteUser_cleared (hok : (s.deleteUser userId currentUserId saved).1 = .ok ())
    (howned : Owned s) : (s.deleteUser userId currentUserId saved).2.sessions.Each
      fun _ session => session.userId ≠ userId := by
  unfold deleteUser at hok ⊢
  split_ifs at hok ⊢
  cases huser : s.users.lookup userId with
  | none =>
    -- a user that is not there has no sessions
    rintro hash _ hsession rfl
    obtain ⟨_, hfound⟩ := NameMap.mem_iff_exists_lookup.mp (howned hash _ hsession)
    rw [huser] at hfound
    cases hfound
  | some =>
    rw [huser] at hok
    dsimp only at hok ⊢
    split_ifs at hok ⊢
    cases saved with
    | error => cases hok
    | ok => exact clearSessions_cleared _ userId

end AuthInner

theorem Shuts.cleared {s : AuthSystem} {userId : String} {a : AuthAction × Except AppError Unit}
    (h : Shuts s.inner userId a) (howned : Owned s.inner) :
    (s.step env a).inner.sessions.Each fun _ session => session.userId ≠ userId := by
  cases h with
  | changePassword hok hgiven hfull =>
    exact updateUser_cleared hok (.inl ⟨_, hgiven, hfull⟩)
  | disable hok hdisabled => exact updateUser_cleared hok (.inr hdisabled)
  | delete hok => exact deleteUser_cleared hok howned

/-! ## Runs -/

namespace AuthSystem

variable {env : AuthEnv} {s : AuthSystem}

theorem step_owned (h : Owned s.inner) (a : AuthAction × Except AppError Unit) :
    Owned (s.step env a).inner := by
  refine Relation.ReflTransGen.head_induction_on (motive := fun r _ => Owned r → Owned _)
    (step_effects env s _ _) id ?_ h
  intro r _ heffect _ ih hr
  exact ih (heffect.owned hr)

variable {hash : String} {session : AdminSession} {a : AuthAction × Except AppError Unit}
  {actions : List (AuthAction × Except AppError Unit)} {call : ℕ} {begun : LoginCall}

theorem step_session_before (htoken : ∀ token ∈ a.1.token?, env.hashSessionToken token ≠ hash)
    (h : (s.step env a).inner.sessions.lookup hash = some session) :
    s.inner.sessions.lookup hash = some session := by
  refine Relation.ReflTransGen.head_induction_on
    (motive := fun r _ => r.sessions.lookup hash = some _)
    (step_effects env s _ _) h ?_
  intro r _ heffect _ ih
  exact heffect.session_before htoken ih

/-- Over a run that does not draw its token again, a session is not issued anew. -/
theorem runs_session_before
    (htokens : ∀ a ∈ actions, ∀ token ∈ a.1.token?, env.hashSessionToken token ≠ hash)
    (h : (runs (step env) s actions).inner.sessions.lookup hash = some session) :
    s.inner.sessions.lookup hash = some session := by
  induction actions generalizing s with
  | nil => exact h
  | cons a _ ih =>
    refine step_session_before (htokens a mem_cons_self) ?_
    exact ih (fun b hb => htokens b (mem_cons_of_mem _ hb)) h

theorem step_logins (h : (s.step env a).logins call = some begun) : s.logins call = some begun ∨
      ∃ input nowMs, a.1 = .beginLogin call input nowMs ∧ begun.password = input.password := by
  obtain ⟨a, _⟩ := a
  unfold step stepResult at h
  cases a with
  | beginLogin other input nowMs =>
    dsimp only at h
    split at h
    · exact .inl h
    next started inner hbegin =>
      dsimp only at h
      by_cases hcall : call = other
      · subst hcall
        rw [Function.update_self] at h
        cases h
        exact .inr ⟨input, nowMs, rfl, beginLogin_password (congrArg Prod.fst hbegin)⟩
      · rw [Function.update_of_ne hcall] at h
        exact .inl h
  | finishLogin other =>
    dsimp only at h
    split at h
    · exact .inl h
    · dsimp only at h
      by_cases hcall : call = other
      · rw [hcall, Function.update_self] at h
        cases h
      · rw [Function.update_of_ne hcall] at h
        exact .inl h
  | beginFederated | finishFederated =>
    dsimp only at h
    split at h <;> exact .inl h
  | _ => exact .inl h

theorem runs_login_begun {file : AuthFile}
    (h : (runs (step env) (.start file) actions).logins call = some begun) :
    ∃ input nowMs saved, (.beginLogin call input nowMs, saved) ∈ actions ∧
      begun.password = input.password := by
  induction actions using reverseRecOn with
  | nil => cases h
  | append_singleton _ a ih =>
    rw [runs_append] at h
    rcases step_logins h with hbefore | ⟨input, nowMs, ha, hpassword⟩
    · obtain ⟨input, nowMs, saved, hmem, hpassword⟩ := ih hbefore
      exact ⟨input, nowMs, saved, mem_append_left _ hmem, hpassword⟩
    · refine ⟨input, nowMs, a.2, mem_append_right _ ?_, hpassword⟩
      rw [← ha]
      exact mem_singleton_self a

/-- The operation has issued a session to a user. -/
structure Issues (env : AuthEnv) (s : AuthSystem) (a : AuthAction × Except AppError Unit)
    (userId token : String) : Prop where
  drawn : a.1.token? = some token
  result : ∃ result, (s.stepResult env a).1 = some (.ok result)
  session : ∃ session, (s.step env a).inner.sessions.lookup (env.hashSessionToken token) =
    some session ∧ session.userId = userId

end AuthSystem

theorem AuthInner.requireSession_of_lookup_none {token : String}
    (h : s.sessions.lookup (env.hashSessionToken token) = none) {headers : String → Option String}
    (htoken : sessionTokenFromHeaders headers = some token) (nowMs : ℕ) :
    (s.requireSession env headers nowMs).1 = .error .auth := by
  have hpruned : (s.pruneExpiredSessions nowMs).sessions.lookup (env.hashSessionToken token) =
      none := by
    rw [pruneExpiredSessions, NameMap.lookup_retain, h]
    rfl
  unfold requireSession
  simp only [htoken, hpruned]

open AuthSystem in
/-- However the parts of logins and of changes of users follow each other: a password login issues
a session only if the user is active and the password given fits the hash stored at that moment,
and once a user's password is changed or the user is disabled or deleted, no session from before
is accepted any more. -/
theorem sessions_guarded {env : AuthEnv} {file : AuthFile}
    {actions : List (AuthAction × Except AppError Unit)}
    (hdistinct : ((actions.filterMap fun a => a.1.token?).map env.hashSessionToken).Nodup) :
    (∀ before call token saved after result,
      actions = before ++ (.finishLogin call token, saved) :: after →
      let s := runs (step env) (.start file) before
      (s.stepResult env (.finishLogin call token, saved)).1 = some (.ok result) →
      ∃ input nowMs answer userId user, (.beginLogin call input nowMs, answer) ∈ before ∧
        s.inner.users.lookup userId = some user ∧ user.status = "active" ∧
        env.verifyPassword input.password user.passwordHash = true ∧
        Issues env s (.finishLogin call token, saved) userId token) ∧
    (∀ before issue between shut after userId token,
      actions = before ++ issue :: (between ++ shut :: after) →
      Issues env (runs (step env) (.start file) before) issue userId token →
      Shuts (runs (step env) (.start file) (before ++ issue :: between)).inner userId shut →
      ∀ headers nowMs, sessionTokenFromHeaders headers = some token →
        ((runs (step env) (.start file) actions).inner.requireSession env headers nowMs).1 =
          .error .auth) := by
  constructor
  · intro before call token saved after result hactions s hresult
    cases hcall : s.logins call with
    | none =>
      unfold stepResult at hresult
      dsimp only at hresult
      rw [hcall] at hresult
      cases hresult
    | some begun =>
      obtain ⟨input, nowMs, answer, hbegun, hpassword⟩ := runs_login_begun hcall
      have hok : (s.inner.finishLogin env begun token saved).1 = .ok result := by
        unfold stepResult at hresult
        dsimp only at hresult
        rw [hcall] at hresult
        exact Option.some.inj hresult
      obtain ⟨userId, user, session, huser, hactive, hverified, hsession, howner⟩ :=
        finishLogin_ok hok
      refine ⟨input, nowMs, answer, userId, user, hbegun, huser, hactive, hpassword ▸ hverified,
        rfl, ⟨result, hresult⟩, session, ?_, howner⟩
      rw [step_finishLogin_inner hcall]
      exact hsession
  · intro before issue between shut after _ token hactions hissue hshut _ _ htoken
    -- the token was drawn once, so none of the later operations draws it
    have hothers : ∀ a ∈ between ++ shut :: after, ∀ other ∈ a.1.token?,
        env.hashSessionToken other ≠ env.hashSessionToken token := by
      intro a ha _ hother heq
      rw [hactions, filterMap_append, filterMap_cons, hissue.drawn, map_append,
        map_cons] at hdistinct
      refine (nodup_cons.mp (nodup_append.mp hdistinct).2.1).1 ?_
      rw [← heq]
      exact mem_map_of_mem (mem_filterMap.mpr ⟨a, ha, hother⟩)
    obtain ⟨_, hsession, howner⟩ := hissue.session
    refine requireSession_of_lookup_none ?_ htoken _
    rw [Option.eq_none_iff_forall_ne_some]
    intro _ hlater
    rw [hactions, runs_append, runs_cons, runs_append] at hlater
    -- a session that is accepted at end has been there since user was shut out
    have hshutout := runs_session_before (fun a ha => hothers a
      (mem_append_right _ (mem_cons_of_mem _ ha))) hlater
    have hbetween := step_session_before (hothers shut
      (mem_append_right _ mem_cons_self)) hshutout
    have hfirst := runs_session_before (fun a ha => hothers a (mem_append_left _ ha)) hbetween
    rw [hsession] at hfirst
    cases hfirst
    rw [runs_append] at hshut
    have hstart : Owned (start file).inner := .empty
    have howned : Owned (runs (step env) (.start file) (before ++ issue :: between)).inner :=
      runs_invariant (I := fun s : AuthSystem => Owned _) (fun _ a h => step_owned h a) hstart
    rw [runs_append] at howned
    exact hshut.cleared howned _ _ hshutout howner

/-- Alice logs in, and then her password is changed. -/
def aliceShutOut : List (AuthAction × Except AppError Unit) :=
  [(createAlice, .ok ()), (.beginLogin 0 ⟨"alice", "wrong-mule-charger"⟩ 2, .ok ()),
    (.finishLogin 0 "mps_1", .ok ()),
    (.updateUser "usr_1" "usr_0" { password := some "other-mule-charger" }
      (.ok "other-mule-charger") 3, .ok ())]

theorem alice_session_shut_out :
    ((aliceShutOut.filterMap fun a => a.1.token?).map plainEnv.hashSessionToken).Nodup ∧
      ∀ headers nowMs, sessionTokenFromHeaders headers = some "mps_1" →
        ((runs (AuthSystem.step plainEnv) (.start ownerFile) aliceShutOut).inner.requireSession
          plainEnv headers nowMs).1 = .error .auth := by
  have hdistinct : ((aliceShutOut.filterMap (·.1.token?)).map
      plainEnv.hashSessionToken).Nodup := by
    decide
  have exists_ok : ∀ {α} (result : Except AppError α), result.toOption.isSome = true →
      ∃ a, result = .ok a := by
    intro α result h
    cases result with
    | error => cases h
    | ok a => exact ⟨a, rfl⟩
  refine ⟨hdistinct, (sessions_guarded hdistinct).2 (aliceShutOut.take 2) _ [] _ [] "usr_1" "mps_1"
    rfl ⟨rfl, ?_, ?_⟩ ?_⟩
  · have hsome : ((stepResult plainEnv (runs (step plainEnv)
        (.start ownerFile) (aliceShutOut.take 2)) (.finishLogin 0 "mps_1", .ok ())).1.bind
          Except.toOption).isSome = true := by
      decide
    obtain ⟨_, hresult⟩ := Option.isSome_iff_exists.mp hsome
    obtain ⟨_, hanswer, hok⟩ := Option.bind_eq_some_iff.mp hresult
    obtain ⟨_, rfl⟩ := exists_ok _ (by rw [hok]; rfl)
    exact ⟨_, hanswer⟩
  · have huser : ((runs (step plainEnv) (.start ownerFile)
        (aliceShutOut.take 3)).inner.sessions.lookup "mps_1").map AdminSession.userId =
          some "usr_1" := by
      decide
    exact Option.map_eq_some_iff.mp huser
  · obtain ⟨_, hok⟩ := exists_ok ((runs (step plainEnv) (.start ownerFile)
      (aliceShutOut.take 3)).inner.updateUser "usr_1" "usr_0"
        { password := some "other-mule-charger" } (.ok "other-mule-charger") 3 (.ok ())).1
      (by decide)
    exact .changePassword hok rfl (by decide)

end RouteSmith.Model
