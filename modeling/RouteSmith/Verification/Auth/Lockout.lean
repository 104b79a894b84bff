import RouteSmith.Verification.Auth.Sessions

/-! # The lockout of accounts

Failed logins are counted under the text of the username, while the account is found whatever the
case of its letters. A lockout holds as long as an account is named by one text only and the
record of the text is not evicted.
-/

namespace RouteSmith.Model

open Control Store Text List Nat Prod

/-- A call of `login`, with the time, the token drawn and the answer of the store. -/
structure LoginStep where
  input : LoginInput
  nowMs : ℕ
  token : String
  saved : Except AppError Unit

namespace AuthInner

/-- The state that a login leaves behind. -/
def logs (env : AuthEnv) (s : AuthInner) (a : LoginStep) : AuthInner :=
  (s.login env a.input a.nowMs a.token a.saved).2

/-- The user that a login looks up. -/
def findUser (s : AuthInner) (username : String) : Option (String × AdminUserRecord) :=
  s.users.ordered.find? fun entry => eqIgnoreAsciiCase entry.2.username username

/-- The login is one to the account. -/
def names (s : AuthInner) (userId : String) (a : LoginStep) : Bool :=
  match normalizeUsername a.input.username with
  | .ok username => (s.findUser username).map Prod.fst = some userId
  | .error _ => false

/-- The login gives a password that does not open the account. -/
def Wrong (env : AuthEnv) (s : AuthInner) (userId : String) (a : LoginStep) : Prop :=
  isEmpty a.input.password = false ∧ len a.input.password ≤ maxPasswordBytes ∧
    ∀ user ∈ s.users.lookup userId, user.status ≠ "active" ∨
      env.verifyPassword a.input.password user.passwordHash = false

/-- How many of the logins are to the account. -/
def countLogins (env : AuthEnv) (userId : String) : AuthInner → List LoginStep → ℕ
  | _, [] => 0
  | s, a :: rest => (if s.names userId a then 1 else 0) + countLogins env userId (s.logs env a) rest

/-- What is on record about a name. -/
def attempt (s : AuthInner) (name : String) : LoginAttempt := (s.attempts.lookup name).getD {}

/-- What is left on record about a name at a time. -/
def prunedAttempt (s : AuthInner) (name : String) (nowMs : ℕ) : LoginAttempt :=
  ((pruneLoginAttempts s.attempts nowMs).lookup name).getD {}

/-! ## One login -/

variable {env : AuthEnv} {s : AuthInner} {a : LoginStep} {userId name username : String}

theorem findUser_lookup {entry : String × AdminUserRecord} (h : s.findUser username = some entry) :
    s.users.lookup entry.1 = some entry.2 :=
  NameMap.mem_ordered.mp (mem_of_find?_eq_some h)

theorem findUser_fst (s : AuthInner) (username : String) : (s.findUser username).map fst =
      ((s.users.ordered.map (map id AdminUserRecord.username)).find? fun entry =>
        eqIgnoreAsciiCase entry.2 username).map fst := by
  rw [find?_map, Option.map_map]
  rfl

/-- What a login can come to. -/
inductive Outcome (env : AuthEnv) (s : AuthInner) (a : LoginStep) :
    Except AppError LoginResult × AuthInner → Prop
  | refused {error : AppError}
    (hshape : ∀ username, normalizeUsername a.input.username = .ok username →
      isEmpty a.input.password = true ∨ maxPasswordBytes < len a.input.password) :
    Outcome env s a (.error error, s)
  | locked {username : String} {t : AuthInner}
    (hname : normalizeUsername a.input.username = .ok username)
    (hattempts : t.attempts = pruneLoginAttempts s.attempts a.nowMs)
    (hlocked : a.nowMs < (s.prunedAttempt username a.nowMs).lockedUntilMs)
    (husers : t.users = s.users) :
    Outcome env s a (.error .auth, t)
  | failed {username : String} {t : AuthInner}
    (hname : normalizeUsername a.input.username = .ok username)
    (hopen : (s.prunedAttempt username a.nowMs).lockedUntilMs ≤ a.nowMs)
    (hattempts : t.attempts =
      recordFailedLogin (pruneLoginAttempts s.attempts a.nowMs) username a.nowMs)
    (husers : t.users = s.users) : Outcome env s a (.error .auth, t)
  | opened {username : String} {entry : String × AdminUserRecord}
    {result : Except AppError LoginResult} {t : AuthInner}
    (hname : normalizeUsername a.input.username = .ok username)
    (hopen : (s.prunedAttempt username a.nowMs).lockedUntilMs ≤ a.nowMs)
    (hfound : s.findUser username = some entry) (hactive : entry.2.status = "active")
    (hverified : env.verifyPassword a.input.password entry.2.passwordHash = true)
    (hattempts : t.attempts = (pruneLoginAttempts s.attempts a.nowMs).erase username)
    (husers : t.users = s.users ∨ ∃ changed : AdminUserRecord,
      changed.username = entry.2.username ∧ t.users = s.users.insert entry.1 changed) :
    Outcome env s a (result, t)

variable {nowMs : ℕ}

theorem isLocked_iff {t : AuthInner}
    (hattempts : t.attempts = pruneLoginAttempts s.attempts nowMs) :
    t.isLocked username nowMs = true ↔ nowMs < (s.prunedAttempt username nowMs).lockedUntilMs := by
  rw [isLocked, hattempts, prunedAttempt]
  cases (pruneLoginAttempts s.attempts nowMs).lookup username with
  | none => simp
  | some => exact decide_eq_true_iff

theorem finishLogin_outcome (t : AuthInner) (call : LoginCall)
    (hname : normalizeUsername a.input.username = .ok call.username)
    (hpassword : call.password = a.input.password) (hnow : call.nowMs = a.nowMs)
    (hcandidate : call.candidate = s.findUser call.username) (husers : t.users = s.users)
    (hattempts : t.attempts = pruneLoginAttempts s.attempts a.nowMs)
    (hopen : (s.prunedAttempt call.username a.nowMs).lockedUntilMs ≤ a.nowMs) (token : String)
    (saved : Except AppError Unit) :
    Outcome env s a (t.finishLogin env call token saved) := by
  have hfail : Outcome env s a
      ((t.pruneExpiredSessions call.nowMs).failLogin call.username call.nowMs) := by
    refine .failed hname hopen ?_ husers
    rw [← hattempts, ← hnow]
    rfl
  unfold finishLogin
  cases hfound : call.candidate with
  | none => exact hfail
  | some entry =>
    dsimp only
    have huser : (t.pruneExpiredSessions call.nowMs).users.lookup entry.1 = some entry.2 := by
      rw [pruneExpiredSessions, husers]
      exact findUser_lookup (hcandidate.symm.trans hfound)
    rw [huser]
    dsimp only
    by_cases hrefused : ¬(entry.2.status = "active" ∧
        env.verifyPassword call.password entry.2.passwordHash = true) ∨
        ¬(entry.2.status = "active" ∧ eqIgnoreAsciiCase entry.2.username call.username = true ∧
          entry.2.passwordHash = entry.2.passwordHash)
    · rw [if_pos hrefused]
      exact hfail
    · have hunlocked : ¬(t.pruneExpiredSessions call.nowMs).isLocked call.username call.nowMs =
          true := by
        intro hlocked
        rw [hnow] at hlocked
        exact absurd ((isLocked_iff (t := t.pruneExpiredSessions _) hattempts).mp hlocked)
          hopen.not_gt
      rw [if_neg hrefused, if_neg hunlocked]
      obtain ⟨hverified, -⟩ := not_or.mp hrefused
      obtain ⟨hactive, hverified⟩ := not_not.mp hverified
      rw [hpassword] at hverified
      have hfound' := hcandidate.symm.trans hfound
      have herased : t.attempts.erase call.username =
          (pruneLoginAttempts s.attempts a.nowMs).erase call.username := by rw [hattempts]
      cases saved with
      | error =>
        exact .opened hname hopen hfound' hactive hverified herased (.inl husers)
      | ok =>
        let changed := { entry.2 with lastLoginAtMs := some call.nowMs, updatedAtMs := call.nowMs }
        have hchanged : t.users.insert entry.1 changed = s.users.insert entry.1 changed := by
          rw [husers]
        exact .opened hname hopen hfound' hactive hverified herased (.inr ⟨changed, rfl, hchanged⟩)

/-- The state in which a login looks up its user. -/
def pruned (s : AuthInner) (nowMs : ℕ) : AuthInner :=
  { s.pruneExpiredSessions nowMs with attempts := pruneLoginAttempts s.attempts nowMs }

theorem beginLogin_eq {input : LoginInput} (hname : normalizeUsername input.username = .ok username)
    (hshape : ¬(isEmpty input.password || decide (maxPasswordBytes < len input.password)) = true) :
    s.beginLogin input nowMs =
      if (s.pruned nowMs).isLocked username nowMs then (.error .auth, s.pruned nowMs)
      else (.ok ⟨username, input.password, nowMs, s.findUser username⟩, s.pruned nowMs) := by
  unfold beginLogin
  rw [hname]
  dsimp only
  rw [if_neg hshape]
  rfl

theorem login_outcome (env : AuthEnv) (s : AuthInner) (a : LoginStep) :
    ∃ out, s.login env a.input a.nowMs a.token a.saved = out ∧ Outcome env s a out := by
  refine ⟨_, rfl, ?_⟩
  unfold login
  cases hname : normalizeUsername a.input.username with
  | error =>
    rw [beginLogin, hname]
    refine .refused fun username h => ?_
    rw [hname] at h
    cases h
  | ok username =>
    by_cases hshape : (isEmpty a.input.password ||
        decide (maxPasswordBytes < len a.input.password)) = true
    · rw [beginLogin, hname]
      dsimp only
      rw [if_pos hshape]
      refine .refused fun _ _ => ?_
      simpa using hshape
    · have hattempts : (s.pruned a.nowMs).attempts = pruneLoginAttempts s.attempts a.nowMs := rfl
      rw [beginLogin_eq hname hshape]
      by_cases hlocked : (s.pruned a.nowMs).isLocked username a.nowMs = true
      · rw [if_pos hlocked]
        exact .locked hname hattempts ((isLocked_iff hattempts).mp hlocked) rfl
      · rw [if_neg hlocked]
        have hopen := not_lt.mp fun h => hlocked ((isLocked_iff hattempts).mpr h)
        exact finishLogin_outcome (s.pruned _) ⟨username, a.input.password, a.nowMs, s.findUser _⟩
          hname rfl rfl rfl rfl hattempts hopen _ _

theorem findUser_logs (env : AuthEnv) (s : AuthInner) (a : LoginStep) (username : String) :
    ((s.logs env a).findUser username).map fst = (s.findUser username).map fst := by
  rw [findUser_fst, findUser_fst]
  obtain ⟨_, hlogin, hout⟩ := login_outcome env s a
  rw [logs, hlogin]
  cases hout with
  | refused => rfl
  | locked _ _ _ husers | failed _ _ _ husers => rw [husers]
  | opened _ _ hfound _ _ _ husers =>
    rcases husers with husers | ⟨_, hchanged, husers⟩
    · rw [husers]
    · rw [husers, NameMap.map_ordered_insert (findUser_lookup hfound) hchanged]

/-! ## The record of a name -/

theorem recordFailedLogin_pruned (hroom : s.attempts.entries.length < maxLoginAttemptRecords)
    (username : String) (nowMs : ℕ) :
    recordFailedLogin (pruneLoginAttempts s.attempts nowMs) username nowMs =
      (pruneLoginAttempts s.attempts nowMs).insert username
        (recordFailedAttempt (s.prunedAttempt username nowMs) nowMs) := by
  unfold recordFailedLogin
  rw [if_neg fun h => absurd (lt_of_le_of_lt (NameMap.length_retain_le _ _) hroom) h.2.not_gt]
  rfl

/-- A login under another name leaves the record as it is, or takes it away once it has run out. -/
theorem attempt_logs_of_ne (hroom : s.attempts.entries.length < maxLoginAttemptRecords)
    (hother : normalizeUsername a.input.username ≠ .ok name) :
    (s.logs env a).attempt name = s.attempt name ∨
      (s.logs env a).attempt name = s.prunedAttempt name a.nowMs := by
  have hne : ∀ {username}, normalizeUsername a.input.username = .ok username → name ≠ username :=
    fun hname heq => hother (heq ▸ hname)
  obtain ⟨_, hlogin, hout⟩ := login_outcome env s a
  rw [logs, hlogin]
  cases hout with
  | refused => exact .inl rfl
  | locked hname hattempts =>
    right
    rw [attempt, hattempts, prunedAttempt]
  | failed hname hopen hattempts =>
    right
    rw [attempt, hattempts, recordFailedLogin_pruned hroom, AList.lookup_insert_ne (hne hname),
      prunedAttempt]
  | opened hname _ _ _ _ hattempts =>
    right
    rw [attempt, hattempts, AList.lookup_erase_ne (hne hname), prunedAttempt]

theorem prunedAttempt_cases (s : AuthInner) (name : String) (nowMs : ℕ) :
    s.prunedAttempt name nowMs = s.attempt name ∨
      s.prunedAttempt name nowMs = {} ∧ (s.attempt name).lockedUntilMs ≤ nowMs ∧
        saturate ((s.attempt name).lastAttemptMs + loginAttemptRetentionMs) ≤ nowMs := by
  rw [prunedAttempt, attempt, pruneLoginAttempts, NameMap.lookup_retain]
  cases s.attempts.lookup name with
  | none => exact .inl rfl
  | some =>
    rw [Option.filter_some]
    split_ifs with hkept
    · exact .inl rfl
    · simp only [Bool.or_eq_true, decide_eq_true_eq, not_or, not_lt] at hkept
      exact .inr ⟨rfl, hkept⟩

theorem prunedAttempt_of_locked (h : nowMs < (s.attempt name).lockedUntilMs) :
    s.prunedAttempt name nowMs = s.attempt name := by
  rcases s.prunedAttempt_cases name nowMs with heq | ⟨-, hopen, -⟩
  · exact heq
  · exact absurd h hopen.not_gt

theorem attempt_logs_of_wrong (hroom : s.attempts.entries.length < maxLoginAttemptRecords)
    (hname : normalizeUsername a.input.username = .ok name) (hnames : s.names userId a = true)
    (hwrong : s.Wrong env userId a)
    (hunlocked : (s.prunedAttempt name a.nowMs).lockedUntilMs ≤ a.nowMs) :
    (s.logs env a).attempt name = recordFailedAttempt (s.prunedAttempt name a.nowMs) a.nowMs := by
  obtain ⟨hfull, hshort, hwrong⟩ := hwrong
  obtain ⟨_, hlogin, hout⟩ := login_outcome env s a
  rw [logs, hlogin]
  cases hout with
  | refused hshape =>
    rcases hshape name hname with hempty | hlong
    · exact absurd hempty (by rw [hfull]; exact Bool.false_ne_true)
    · exact absurd hlong hshort.not_gt
  | locked hname' _ hlocked =>
    cases hname.symm.trans hname'
    exact absurd hlocked hunlocked.not_gt
  | failed hname' hopen hattempts =>
    cases hname.symm.trans hname'
    rw [attempt, hattempts, recordFailedLogin_pruned hroom, AList.lookup_insert]
    rfl
  | opened hname' hopen hfound hactive hverified =>
    cases hname.symm.trans hname'
    rw [names, hname] at hnames
    simp only [hfound, Option.map_some, Option.some.injEq, decide_eq_true_eq] at hnames
    subst hnames
    rcases hwrong _ (findUser_lookup hfound) with hdisabled | hmismatch
    · exact absurd hactive hdisabled
    · rw [hmismatch] at hverified
      cases hverified

theorem login_of_locked (hname : normalizeUsername a.input.username = .ok name)
    (hlocked : a.nowMs < (s.attempt name).lockedUntilMs) :
    (∀ result, (s.login env a.input a.nowMs a.token a.saved).1 ≠ .ok result) ∧
      (s.logs env a).attempt name = s.attempt name := by
  have hkept := prunedAttempt_of_locked hlocked
  obtain ⟨_, hlogin, hout⟩ := login_outcome env s a
  rw [logs, hlogin]
  cases hout with
  | refused => exact ⟨nofun, rfl⟩
  | locked _ hattempts =>
    refine ⟨nofun, ?_⟩
    rw [attempt, hattempts]
    exact hkept
  | failed hname' hopen | opened hname' hopen =>
    cases hname.symm.trans hname'
    rw [hkept] at hopen
    exact absurd hlocked hopen.not_gt

/-! ## Runs of logins -/

/-- So many failures are on record since a time, and from then on the name is not locked. -/
structure Counts (attempt : LoginAttempt) (count sinceMs : ℕ) : Prop where
  counted : attempt.failedCount = count
  unlocked : attempt.lockedUntilMs ≤ sinceMs
  recent : 0 < count → sinceMs ≤ attempt.lastAttemptMs

theorem saturate_le_saturate {m n : ℕ} (h : m ≤ n) : saturate m ≤ saturate n :=
  min_le_min_right _ h

variable {count sinceMs : ℕ}

theorem Counts.pruned (h : Counts (s.attempt name) count sinceMs)
    (hwindow : nowMs < saturate (sinceMs + loginAttemptRetentionMs)) :
    Counts (s.prunedAttempt name nowMs) count sinceMs := by
  rcases s.prunedAttempt_cases name nowMs with heq | ⟨hnone, -, hold⟩
  · rwa [heq]
  · rw [hnone]
    have hzero : count = 0 := by
      by_contra hcount
      have hrecent := saturate_le_saturate
        (Nat.add_le_add_right (h.recent (pos_of_ne_zero hcount)) loginAttemptRetentionMs)
      omega
    subst hzero
    exact ⟨rfl, zero_le _, fun h => absurd h (lt_irrefl 0)⟩

variable {attempt : LoginAttempt} {logins : List LoginStep}

theorem Counts.record (h : Counts attempt count sinceMs) (hsince : sinceMs ≤ nowMs)
    (hfew : count + 1 < maxFailedAttempts) :
    Counts (recordFailedAttempt attempt nowMs) (count + 1) sinceMs := by
  unfold recordFailedAttempt
  dsimp only
  rw [if_neg (by rw [h.counted]; omega), h.counted]
  exact ⟨rfl, h.unlocked, fun _ => hsince⟩

theorem Counts.lock (h : Counts attempt count sinceMs) (nowMs : ℕ)
    (hmany : maxFailedAttempts ≤ count + 1) :
    (recordFailedAttempt attempt nowMs).lockedUntilMs = saturate (nowMs + lockoutMs) := by
  unfold recordFailedAttempt
  rw [if_pos (by rw [h.counted]; omega)]

/-- There is room for another record, and a login to the account spells its name in the one way. -/
def Spelled (userId name : String) (s : AuthInner) (a : LoginStep) : Prop :=
  s.attempts.entries.length < maxLoginAttemptRecords ∧
    (s.names userId a = true → normalizeUsername a.input.username = .ok name)

theorem names_iff (hname : normalizeUsername a.input.username = .ok name) :
    s.names userId a = true ↔ (s.findUser name).map fst = some userId := by
  rw [names, hname]
  exact decide_eq_true_iff

/-- Each login to the account that does not open it is counted. -/
theorem counts_logs (hspelled : s.Spelled userId name a)
    (hwrong : s.names userId a = true → s.Wrong env userId a)
    (haccount : (s.findUser name).map fst = some userId)
    (hsince : sinceMs ≤ a.nowMs)
    (hwindow : a.nowMs < saturate (sinceMs + loginAttemptRetentionMs))
    (h : Counts (s.attempt name) count sinceMs)
    (hfew : (if s.names userId a then 1 else 0) + count < maxFailedAttempts) :
    Counts ((s.logs env a).attempt name) ((if s.names userId a then 1 else 0) + count)
      sinceMs := by
  have hpruned := h.pruned hwindow
  by_cases hname : normalizeUsername a.input.username = .ok name
  · have hnames := (names_iff hname).mpr haccount
    rw [if_pos hnames, add_comm] at hfew ⊢
    rw [attempt_logs_of_wrong hspelled.1 hname hnames (hwrong hnames)
      (le_trans hpruned.unlocked hsince)]
    exact hpruned.record hsince hfew
  · rw [if_neg fun hnames => hname (hspelled.2 hnames), zero_add]
    rcases attempt_logs_of_ne hspelled.1 hname with heq | heq
    · rwa [heq]
    · rwa [heq]

theorem counts_runs (hspelled : Meets (logs env) (Spelled userId name) s logins)
    (hwrong : Meets (logs env) (fun s a => s.names userId a = true → s.Wrong env userId a) s logins)
    (haccount : (s.findUser name).map fst = some userId)
    (hwindow : ∀ a ∈ logins, sinceMs ≤ a.nowMs ∧
      a.nowMs < saturate (sinceMs + loginAttemptRetentionMs))
    (h : Counts (s.attempt name) count sinceMs)
    (hfew : countLogins env userId s logins + count < maxFailedAttempts) :
    Counts ((runs (logs env) s logins).attempt name) (countLogins env userId s logins + count)
      sinceMs := by
  induction logins generalizing s count with
  | nil =>
    rw [countLogins, zero_add]
    exact h
  | cons a logins ih =>
    rw [countLogins] at hfew ⊢
    obtain ⟨hsince, hbefore⟩ := hwindow a mem_cons_self
    have hstep := counts_logs hspelled.1 hwrong.1 haccount hsince hbefore h (by omega)
    have hrest := ih hspelled.2 hwrong.2 ((findUser_logs env s a name).trans haccount)
      (fun b hb => hwindow b (mem_cons_of_mem _ hb)) hstep (by omega)
    rw [runs_cons, add_right_comm, add_comm]
    exact hrest

theorem locked_runs {untilMs : ℕ} (hspelled : Meets (logs env) (Spelled userId name) s logins)
    (hbefore : ∀ a ∈ logins, a.nowMs < untilMs) (h : (s.attempt name).lockedUntilMs = untilMs) :
    ((runs (logs env) s logins).attempt name).lockedUntilMs = untilMs := by
  induction logins generalizing s with
  | nil => exact h
  | cons a _ ih =>
    rw [runs_cons]
    refine ih hspelled.2 (fun b hb => hbefore b (mem_cons_of_mem _ hb)) ?_
    have hlocked : a.nowMs < (s.attempt name).lockedUntilMs := by
      rw [h]
      exact hbefore a mem_cons_self
    by_cases hname : normalizeUsername a.input.username = .ok name
    · rw [(login_of_locked hname hlocked).2, h]
    · rcases attempt_logs_of_ne hspelled.1.1 hname with heq | heq
      · rw [heq, h]
      · rw [heq, prunedAttempt_of_locked hlocked, h]

theorem countLogins_append (env : AuthEnv) (userId : String) (s : AuthInner)
    (logins more : List LoginStep) :
    countLogins env userId s (logins ++ more) = countLogins env userId s logins +
        countLogins env userId (runs (logs env) s logins) more := by
  induction logins generalizing s with
  | nil => exact (zero_add _).symm
  | cons _ _ ih =>
    rw [cons_append, countLogins, countLogins, ih, add_assoc, runs_cons]

/-- Once five logins to an account failed within the retention of records, no login to it succeeds
before the lockout has run out, if all of them spell the name in one way, no failure was on record
before, and the records of failures do not fill up. -/
theorem lockout_guards_account {burst later : List LoginStep} {last final : LoginStep}
    (hclear : Counts (s.attempt name) 0 sinceMs)
    (hspelled : Meets (logs env) (Spelled userId name) s (burst ++ last :: (later ++ [final])))
    (hwrong : Meets (logs env) (fun s a => s.names userId a = true → s.Wrong env userId a) s
      (burst ++ [last]))
    (hlast : (runs (logs env) s burst).names userId last = true)
    (hfive : countLogins env userId s (burst ++ [last]) = 5)
    (hwindow : ∀ a ∈ burst ++ [last], sinceMs ≤ a.nowMs ∧
      a.nowMs < saturate (sinceMs + loginAttemptRetentionMs))
    (hclock : (burst ++ last :: (later ++ [final])).Pairwise fun a b => a.nowMs ≤ b.nowMs)
    (hfinal : (runs (logs env) s (burst ++ last :: later)).names userId final = true)
    (hnow : final.nowMs < saturate (last.nowMs + lockoutMs)) :
    ∀ result, ((runs (logs env) s (burst ++ last :: later)).login env final.input final.nowMs
      final.token final.saved).1 ≠ .ok result := by
  obtain ⟨hburst, hlastSpelled, hrest⟩ := (meets_append _).mp hspelled
  obtain ⟨hlater, hfinalSpelled, -⟩ := (meets_append _).mp hrest
  obtain ⟨hburstWrong, hlastWrong, -⟩ := (meets_append _).mp hwrong
  have hlastName := hlastSpelled.2 hlast
  have haccount : (s.findUser name).map fst = some userId := by
    have hstable : ((runs (logs env) s burst).findUser name).map fst =
        (s.findUser name).map fst :=
      runs_invariant (I := fun t => (t.findUser name).map fst = (s.findUser name).map fst)
        (fun t a => (findUser_logs env t a name).trans) rfl
    rw [← hstable]
    exact (names_iff hlastName).mp hlast
  have hfour : countLogins env userId s burst = 4 := by
    rw [countLogins_append, countLogins, if_pos hlast, countLogins] at hfive
    omega
  -- four failures are on record before the last one, which then locks the name
  have hcounts := counts_runs hburst hburstWrong haccount
    (fun a ha => hwindow a (mem_append_left _ ha)) hclear (by rw [hfour]; decide)
  rw [hfour] at hcounts
  obtain ⟨hsince, hbefore⟩ := hwindow last (mem_append_right _ mem_cons_self)
  have hpruned := hcounts.pruned hbefore
  have hlock : (((runs (logs env) s burst).logs env last).attempt name).lockedUntilMs =
      saturate (last.nowMs + lockoutMs) := by
    rw [attempt_logs_of_wrong hlastSpelled.1 hlastName hlast (hlastWrong hlast)
      (le_trans hpruned.unlocked hsince)]
    exact hpruned.lock _ (by decide)
  have hsorted := (pairwise_cons.mp (pairwise_append.mp hclock).2.1).2
  have hlocked := locked_runs hlater (fun a ha => lt_of_le_of_lt
    ((pairwise_append.mp hsorted).2.2 a ha _ mem_cons_self) hnow) hlock
  rw [runs_append, runs_cons] at hfinal ⊢
  exact (login_of_locked (hfinalSpelled.2 hfinal) (by rw [hlocked]; exact hnow)).1

def guess (username password : String) (nowMs : ℕ) : LoginStep where
  input := { username, password }
  nowMs
  token := "mps_1"
  saved := .ok ()

/-- Five spellings of one name. -/
def caseGuesses : List LoginStep :=
  [guess "owner" "a" 1, guess "Owner" "b" 2, guess "oWner" "c" 3, guess "owNer" "d" 4,
    guess "ownEr" "e" 5]

/-- Five logins to an account fail within five milliseconds, and the next one succeeds. -/
theorem lockout_evaded_by_case :
    let s := AuthInner.load ownerFile
    countLogins plainEnv "usr_0" s caseGuesses = 5 ∧
    (∀ n ∈ List.range 5, ∀ a ∈ caseGuesses[n]?,
      ((runs (logs plainEnv) s (caseGuesses.take n)).login plainEnv a.input a.nowMs a.token
        a.saved).1.toOption.isNone = true) ∧
    (runs (logs plainEnv) s caseGuesses).names "usr_0"
      (guess "owner" "correct-horse-battery" 6) = true ∧
    ((runs (logs plainEnv) s caseGuesses).login plainEnv ⟨"owner", "correct-horse-battery"⟩ 6
      "mps_1" (.ok ())).1.toOption.isSome = true := by
  decide

def ownerGuesses : List LoginStep :=
  [guess "owner" "a" 1, guess "owner" "b" 2, guess "owner" "c" 3, guess "owner" "d" 4]

theorem owner_locked_out :
    let s := runs (logs plainEnv) (AuthInner.load ownerFile)
      (ownerGuesses ++ guess "owner" "e" 5 :: [])
    let login := guess "owner" "correct-horse-battery" 6
    s.names "usr_0" login = true ∧
      ∀ result, (s.login plainEnv login.input login.nowMs login.token login.saved).1 ≠
        .ok result := by
  have hfinal : (runs (logs plainEnv) (load ownerFile)
      (ownerGuesses ++ guess "owner" "e" 5 :: [])).names "usr_0"
        (guess "owner" "correct-horse-battery" 6) = true := by
    decide
  have hclear : Counts ((load ownerFile).attempt "owner") 0 1 :=
    ⟨rfl, zero_le _, fun h => absurd h (lt_irrefl 0)⟩
  have hspelled : Meets (logs plainEnv) (Spelled "usr_0" "owner") (load ownerFile)
      (ownerGuesses ++ guess "owner" "e" 5 :: ([] ++ [guess "owner" "correct-horse-battery" 6])) :=
    ⟨⟨by decide, fun _ => rfl⟩, ⟨by decide, fun _ => rfl⟩,
      ⟨by decide, fun _ => rfl⟩, ⟨by decide, fun _ => rfl⟩,
      ⟨by decide, fun _ => rfl⟩, ⟨by decide, fun _ => rfl⟩, trivial⟩
  have hwrong : Meets (logs plainEnv)
      (fun s a => s.names "usr_0" a = true → s.Wrong plainEnv "usr_0" a) (load ownerFile)
      (ownerGuesses ++ [guess "owner" "e" 5]) :=
    ⟨fun _ => ⟨by decide, by decide, by decide⟩,
      fun _ => ⟨by decide, by decide, by decide⟩,
      fun _ => ⟨by decide, by decide, by decide⟩,
      fun _ => ⟨by decide, by decide, by decide⟩,
      fun _ => ⟨by decide, by decide, by decide⟩, trivial⟩
  exact ⟨hfinal, lockout_guards_account hclear hspelled hwrong (by decide)
    (by decide) (by decide) (by decide) hfinal (by decide)⟩

end AuthInner

end RouteSmith.Model
