import RouteSmith.Model.RateLimiter
import RouteSmith.Control.SlidingWindow
import RouteSmith.Control.Runs
import Mathlib.Data.List.Find

/-! # The rate limiter is a sliding window

The limiter answers as one that remembers every check it accepted: what it drops lies before every
window to come.
-/

namespace RouteSmith.Model

open Control Control.SlidingWindow Store Text List Nat

/-- The times that the limiter remembers of a key. -/
def rateWindow (state : RateLimitState) (key : String) : List ℕ := (state.lookup key).getD []

namespace RateLimitConfig

variable (config : RateLimitConfig)

/-! ## Keys and limits -/

/-- The limit that belongs to a key. -/
def limitOf (key : String) : ℕ :=
  if startsWith key "global:" then config.globalPerMinute
  else if startsWith key "api-key:" then config.apiKeyPerMinute
  else if startsWith key "ip:" then config.ipPerMinute
  else if startsWith key "provider:" then config.providerPerMinute
  else if startsWith key "model:" then config.modelPerMinute
  else 0

/-- The keys that a check is counted under. -/
def keys (c : RateCall) : List String :=
  if config.enabled then (config.rules c).map RateRule.key else []

variable {config}

theorem rule_limit {c : RateCall} {rule : RateRule} (h : rule ∈ config.rules c) :
    rule.limit = config.limitOf rule.key := by
  have hprovider : ∀ providerId, config.providerPerMinute =
      config.limitOf ("provider:" ++ providerId) := by
    simp [limitOf, startsWith]
  have hmodel : ∀ model, config.modelPerMinute = config.limitOf ("model:" ++ model) := by
    simp [limitOf, startsWith]
  cases c with
  | check =>
    simp only [rules, scopeRules, mem_append, mem_cons, not_mem_nil, or_false,
      Option.mem_toList, Option.map_eq_some_iff] at h
    rcases h with (((rfl | rfl) | ⟨_, -, rfl⟩) | ⟨providerId, -, rfl⟩) | ⟨model, -, rfl⟩
    · simp [limitOf, startsWith]
    · simp [limitOf, startsWith]
    · simp [limitOf, startsWith]
    · exact hprovider _
    · exact hmodel _
  | checkProviderAttempt providerId model =>
    simp only [rules, mem_cons, not_mem_nil, or_false] at h
    rcases h with rfl | rfl
    · exact hprovider _
    · exact hmodel _

theorem rules_nodup (c : RateCall) : ((config.rules c).map RateRule.key).Nodup := by
  -- the first letters of the keys differ
  refine .of_map (·.toList.head?) ?_
  cases c with
  | check scope =>
    obtain ⟨_, clientIp, providerId, model⟩ := scope
    cases clientIp <;> cases providerId <;> cases model <;>
      simp [rules, scopeRules, providerRule, modelRule]
  | checkProviderAttempt => simp [rules, providerRule, modelRule]

/-! ## What the limiter remembers -/

/-- For each key with a limit, the limiter remembers the accepted checks since some time before
`start`. -/
def Tracks (config : RateLimitConfig) (state : RateLimitState) (log : Log String) (start : ℕ) :
    Prop :=
  ∀ k, 0 < config.limitOf k → ∃ since ≤ start, rateWindow state k = (log k).filter (since ≤ ·)

variable {state : RateLimitState} {log : Log String} {start now : ℕ}

theorem Tracks.mono (h : Tracks config state log start) {later : ℕ} (hle : start ≤ later) :
    Tracks config state log later := by
  intro k hk
  obtain ⟨since, hsince, hwindow⟩ := h k hk
  exact ⟨since, le_trans hsince hle, hwindow⟩

variable {k : String} {rules : List RateRule} {a : ℕ × RateCall}

theorem rateWindow_mapValues (state : RateLimitState) (f : String → List ℕ → List ℕ)
    (hf : f k [] = []) : rateWindow (state.mapValues f) k = f k (rateWindow state k) := by
  rw [rateWindow, rateWindow, NameMap.lookup_mapValues]
  cases state.lookup k with
  | none => exact hf.symm
  | some => rfl

theorem rateWindow_pruneRateWindow (state : RateLimitState) (key k : String) (windowStart : ℕ) :
    rateWindow (pruneRateWindow state key windowStart) k =
      if k = key then (rateWindow state k).dropWhile (· < windowStart) else rateWindow state k :=
  rateWindow_mapValues _ _ (by simp)

theorem rateWindow_dropOld (state : RateLimitState) (k : String) (windowStart : ℕ) :
    rateWindow (dropOld windowStart state) k =
      (rateWindow state k).dropWhile (· < windowStart) := by
  have hretain : ∀ m, rateWindow
      (.retain m fun _ timestamps => !timestamps.isEmpty) k = rateWindow m k := by
    intro m
    rw [rateWindow, rateWindow, NameMap.lookup_retain]
    cases m.lookup k with
    | none => rfl
    | some timestamps => cases timestamps <;> rfl
  rw [dropOld, hretain, rateWindow_mapValues _ _ rfl]

/-- Dropping what lies before the window keeps the limiter true to the log. -/
theorem Tracks.window_dropWhile (h : Tracks config state log start) (hlog : Ordered log now)
    (hk : 0 < config.limitOf k) :
    (rateWindow state k).dropWhile (· < start) = (log k).filter (start ≤ ·) := by
  obtain ⟨_, hsince, hwindow⟩ := h k hk
  rw [hwindow, dropWhile_filter (hlog k).1 hsince]

theorem Tracks.prune (h : Tracks config state log start) (hlog : Ordered log now) (key : String) :
    Tracks config (pruneRateWindow state key start) log start := by
  intro k hk
  rw [rateWindow_pruneRateWindow]
  split_ifs
  · exact ⟨start, le_refl _, h.window_dropWhile hlog hk⟩
  · exact h k hk

theorem Tracks.dropOld (h : Tracks config state log start) (hlog : Ordered log now) :
    Tracks config (dropOld start state) log start := by
  intro k hk
  rw [rateWindow_dropOld]
  exact ⟨start, le_refl _, h.window_dropWhile hlog hk⟩

/-- The answer that the log gives. -/
def answerOf (config : RateLimitConfig) (log : Log String) (now : ℕ) (rules : List RateRule) :
    Option AppError :=
  (rules.find? fun rule => full config.limitOf config.windowMs log now rule.key).map fun rule =>
    config.rateLimited rule now (recent config.windowMs now (log rule.key))

theorem testRules_eq (hrules : ∀ rule ∈ rules, rule.limit = config.limitOf rule.key)
    (h : Tracks config state log (now - config.windowMs)) (hlog : Ordered log now) :
    (config.testRules now state rules).1 = config.answerOf log now rules ∧
      Tracks config (config.testRules now state rules).2 log (now - config.windowMs) := by
  induction rules generalizing state with
  | nil => exact ⟨rfl, h⟩
  | cons rule rules ih =>
    have hlimit := hrules rule mem_cons_self
    have hpruned := h.prune hlog rule.key
    have hrest := ih (fun rule hrule => hrules rule (mem_cons_of_mem _ hrule)) hpruned
    have hwindow : 0 < config.limitOf rule.key →
        rateWindow (pruneRateWindow state rule.key (now - config.windowMs)) rule.key =
          recent config.windowMs now (log rule.key) := by
      intro hpos
      rw [rateWindow_pruneRateWindow, if_pos rfl]
      exact h.window_dropWhile hlog hpos
    have hskip : full config.limitOf config.windowMs log now rule.key = false →
        config.answerOf log now (rule :: rules) = config.answerOf log now rules := by
      intro hfree
      rw [answerOf, find?_cons_of_neg (by simpa using hfree), answerOf]
    rw [testRules]
    cases hlookup : AList.lookup rule.key
        (pruneRateWindow _ _ _) with
    | none =>
      rw [hskip]
      · exact hrest
      · by_cases hpos : 0 < config.limitOf rule.key
        · have hnil : recent config.windowMs now (log rule.key) = [] := by
            rw [← hwindow hpos, rateWindow, hlookup]
            rfl
          simp [full, hnil, pos_iff_ne_zero]
        · simp [full, hpos]
    | some timestamps =>
      dsimp only
      have htimes : 0 < config.limitOf rule.key →
          timestamps = recent config.windowMs now (log rule.key) := by
        intro hpos
        rw [← hwindow hpos, rateWindow, hlookup]
        rfl
      have hcond : (0 < rule.limit ∧ rule.limit ≤ timestamps.length) ↔
          full config.limitOf config.windowMs log now rule.key = true := by
        rw [hlimit, full, Bool.and_eq_true, decide_eq_true_eq, decide_eq_true_eq]
        exact and_congr_right fun hpos => by rw [htimes hpos]
      by_cases hfull : full config.limitOf config.windowMs log now rule.key = true
      · rw [if_pos (hcond.mpr hfull), htimes (hlimit ▸ (hcond.mpr hfull).1), answerOf,
          find?_cons_of_pos (by exact hfull)]
        exact ⟨rfl, hpruned⟩
      · rw [if_neg (mt hcond.mp hfull), hskip (Bool.eq_false_iff.mpr hfull)]
        exact hrest

/-! ## Recording -/

theorem rateWindow_recordRules (hrules : ∀ rule ∈ rules, rule.limit = config.limitOf rule.key)
    (hnodup : (rules.map RateRule.key).Nodup) (hk : 0 < config.limitOf k) :
    rateWindow (recordRules now state rules) k =
      if k ∈ rules.map RateRule.key then rateWindow state k ++ [now] else rateWindow state k := by
  induction rules generalizing state with
  | nil => rfl
  | cons rule rules ih =>
    obtain ⟨hnew, hnodup⟩ := nodup_cons.mp hnodup
    have hlimit := hrules rule mem_cons_self
    rw [recordRules, foldl_cons, ← recordRules,
      ih (fun rule hrule => hrules rule (mem_cons_of_mem _ hrule)) hnodup]
    by_cases hkey : k = rule.key
    · subst hkey
      rw [if_neg hnew, if_neg (by omega), map_cons, if_pos mem_cons_self, rateWindow,
        AList.lookup_insert]
      rfl
    · have hsame : rateWindow (if rule.limit = 0 then state
          else state.insert rule.key ((state.lookup rule.key).getD [] ++ [now])) k =
            rateWindow state k := by
        split_ifs
        · rfl
        · rw [rateWindow, AList.lookup_insert_ne hkey, rateWindow]
      rw [hsame, map_cons]
      simp [hkey]

/-- A check as a request to the sliding window. -/
def request (config : RateLimitConfig) (a : ℕ × RateCall) : Request String :=
  ⟨a.1, config.keys a.2⟩

/-- The answer to a check, by the log. -/
def logAnswer (config : RateLimitConfig) (log : Log String) (a : ℕ × RateCall) :
    Except AppError Unit :=
  if config.enabled then
    match config.answerOf log a.1 (config.rules a.2) with
    | some error => .error error
    | none => .ok ()
  else .ok ()

theorem admits_eq_isOk (log : Log String) (a : ℕ × RateCall) :
    admits config.limitOf config.windowMs log (config.request a) =
      (config.logAnswer log a).isOk := by
  rw [logAnswer, admits, request, keys]
  split_ifs
  · rw [all_map, Bool.eq_iff_iff, all_eq_true, answerOf]
    cases hfind : (config.rules a.2).find? fun rule =>
        full _ _ log _ _ with
    | none =>
      refine iff_of_true (fun rule hrule => ?_) rfl
      simpa using find?_eq_none.mp hfind rule hrule
    | some rule =>
      refine iff_of_false (fun hall => ?_) Bool.false_ne_true
      have hfull := find?_some hfind
      have hfree := hall rule (mem_of_find?_eq_some hfind)
      simp only [Function.comp_apply, hfull] at hfree
      cases hfree
  · rfl

/-- The limiter, the log and the time of the last check. -/
structure Follows (config : RateLimitConfig) (state : RateLimitState) (log : Log String)
    (last : ℕ) : Prop where
  tracks : Tracks config state log (last - config.windowMs)
  ordered : Ordered log last

/-- The limiter answers as the log does, and goes on remembering what the log will need. -/
theorem Follows.call {last : ℕ} (h : Follows config state log last) (hclock : last ≤ a.1) :
    (config.call state a.1 a.2).1 = config.logAnswer log a ∧
      Follows config (config.call state a.1 a.2).2
        (next config.limitOf config.windowMs log (config.request a)) a.1 := by
  have hlog : Ordered log a.1 := h.ordered.mono hclock
  have htracks := h.tracks.mono (Nat.sub_le_sub_right hclock _)
  have hadmits := config.admits_eq_isOk log a
  rw [logAnswer] at hadmits ⊢
  rw [RateLimitConfig.call]
  by_cases henabled : config.enabled = true
  · rw [if_neg (by simp [henabled])]
    rw [if_pos henabled] at hadmits ⊢
    obtain ⟨hanswer, htested⟩ := testRules_eq (fun _ => rule_limit) htracks hlog
    rw [checkRules]
    generalize config.testRules a.1 state (config.rules a.2) = out at hanswer htested
    obtain ⟨answer, tested⟩ := out
    rw [← hanswer] at hadmits ⊢
    cases answer with
    | some =>
      refine ⟨rfl, ?_, hlog.next⟩
      rw [SlidingWindow.next, if_neg (by rw [hadmits]; exact Bool.false_ne_true)]
      exact htested
    | none =>
      refine ⟨rfl, ?_, hlog.next⟩
      have hadmitted : admits config.limitOf config.windowMs log (config.request a) = true :=
        hadmits
      have hrecorded : Tracks config (recordRules a.1 tested (config.rules a.2))
          (next config.limitOf config.windowMs log (config.request a)) (a.1 - config.windowMs) := by
        intro k hk
        obtain ⟨since, hsince, hwindow⟩ := htested k hk
        refine ⟨since, hsince, ?_⟩
        rw [rateWindow_recordRules (fun _ => rule_limit) (rules_nodup _) hk, SlidingWindow.next,
          if_pos hadmitted, hwindow]
        have hkeys : (config.request a).keys = (config.rules a.2).map RateRule.key :=
          if_pos henabled
        rw [hkeys]
        split_ifs
        · have hnow : since ≤ a.1 := le_trans hsince (sub_le _ _)
          simp [request, hnow]
        · rfl
      exact hrecorded.dropOld hlog.next
  · rw [if_pos (by simp [henabled])]
    rw [if_neg henabled] at hadmits ⊢
    refine ⟨rfl, ?_, hlog.next⟩
    intro k hk
    have hadmitted : admits config.limitOf config.windowMs log (config.request a) = true :=
      hadmits
    have hkeys : (config.request a).keys = [] := if_neg henabled
    rw [SlidingWindow.next, if_pos hadmitted]
    rw [hkeys]
    exact htracks k hk

/-! ## Runs of checks -/

/-- The state after a check. -/
def pass (config : RateLimitConfig) (state : RateLimitState) (a : ℕ × RateCall) : RateLimitState :=
  (config.call state a.1 a.2).2

/-- The answers to some checks. -/
def answers (config : RateLimitConfig) :
    RateLimitState → List (ℕ × RateCall) → List (Except AppError Unit)
  | _, [] => []
  | state, a :: checks =>
    (config.call state a.1 a.2).1 :: answers config (config.pass state a) checks

/-- The times of the accepted checks that are counted under a key. -/
def acceptedTimes (config : RateLimitConfig) (key : String) :
    RateLimitState → List (ℕ × RateCall) → List ℕ
  | _, [] => []
  | state, a :: checks =>
    (if (config.call state a.1 a.2).1.isOk ∧ key ∈ config.keys a.2 then [a.1] else []) ++
      acceptedTimes config key (config.pass state a) checks

def logAnswers (config : RateLimitConfig) :
    Log String → List (ℕ × RateCall) → List (Except AppError Unit)
  | _, [] => []
  | log, a :: checks =>
    config.logAnswer log a ::
      logAnswers config (next config.limitOf config.windowMs log (config.request a)) checks

variable {checks : List (ℕ × RateCall)} {last : ℕ}

theorem Follows.answers (h : Follows config state log last)
    (hclock : (last :: checks.map Prod.fst).Pairwise (· ≤ ·)) :
    config.answers state checks = config.logAnswers log checks := by
  induction checks generalizing state log last with
  | nil => rfl
  | cons a _ ih =>
    obtain ⟨hlast, hrest⟩ := pairwise_cons.mp hclock
    obtain ⟨hanswer, hnext⟩ := h.call (hlast _ mem_cons_self)
    rw [RateLimitConfig.answers, logAnswers, hanswer, pass, ih hnext hrest]

theorem Follows.acceptedTimes (h : Follows config state log last)
    (hclock : (last :: checks.map Prod.fst).Pairwise (· ≤ ·)) (key : String) :
    log key ++ config.acceptedTimes key state checks =
      logAfter config.limitOf config.windowMs log (checks.map config.request) key := by
  induction checks generalizing state log last with
  | nil => exact append_nil _
  | cons a _ ih =>
    obtain ⟨hlast, hrest⟩ := pairwise_cons.mp hclock
    obtain ⟨hanswer, hnext⟩ := h.call (hlast _ mem_cons_self)
    have hlogged : next config.limitOf config.windowMs log (config.request a) key = log key ++
        if (config.call state a.1 a.2).1.isOk ∧ key ∈ config.keys a.2 then [a.1] else [] := by
      rw [SlidingWindow.next, admits_eq_isOk, ← hanswer]
      by_cases hok : (config.call state a.1 a.2).1.isOk = true
      · by_cases hkey : key ∈ config.keys a.2
        · simp [hok, hkey, request]
        · simp [hok, hkey, request]
      · simp [hok]
    rw [RateLimitConfig.acceptedTimes, ← append_assoc, ← hlogged, pass, ih hnext hrest]
    rfl

theorem Follows.runs (h : Follows config state log last)
    (hclock : (last :: checks.map Prod.fst).Pairwise (· ≤ ·)) :
    ∃ later, Follows config (runs config.pass state checks)
      (logAfter config.limitOf config.windowMs log (checks.map config.request)) later ∧
        (later = last ∨ later ∈ checks.map Prod.fst) := by
  induction checks generalizing state log last with
  | nil => exact ⟨last, h, .inl rfl⟩
  | cons a _ ih =>
    obtain ⟨hlast, hrest⟩ := pairwise_cons.mp hclock
    obtain ⟨-, hnext⟩ := h.call (hlast a.1 mem_cons_self)
    obtain ⟨later, hfollows, hlater⟩ := ih hnext hrest
    exact ⟨later, hfollows, .inr (mem_cons.mpr hlater)⟩

theorem follows_empty (config : RateLimitConfig) : Follows config ∅ (fun _ => []) 0 :=
  ⟨fun _ _ => ⟨0, zero_le _, rfl⟩, fun _ => ⟨.nil, nofun⟩⟩

variable {before : List (ℕ × RateCall)}

theorem follows_accepted (config : RateLimitConfig)
    (hclock : (before.map Prod.fst).Pairwise (· ≤ ·))
    (hnow : ∀ time ∈ before.map Prod.fst, time ≤ now) :
    ∃ last ≤ now, Follows config (runs config.pass ∅ before)
      (fun key => config.acceptedTimes key ∅ before) last := by
  have hstart := pairwise_cons.mpr ⟨fun _ _ => zero_le _, hclock⟩
  obtain ⟨last, hfollows, hlast⟩ := (follows_empty _).runs hstart
  refine ⟨last, hlast.elim (fun h => h ▸ zero_le _) (hnow _), ?_⟩
  rwa [← funext ((follows_empty _).acceptedTimes hstart)] at hfollows

theorem bounded_accepted (config : RateLimitConfig)
    (hclock : (before.map Prod.fst).Pairwise (· ≤ ·)) :
    Bounded config.limitOf config.windowMs (fun key => config.acceptedTimes key ∅ before) := by
  have hbounded : Bounded config.limitOf config.windowMs (fun _ => []) := fun _ _ _ => zero_le _
  have haccepted := funext ((follows_empty config).acceptedTimes
    (pairwise_cons.mpr ⟨fun _ _ => zero_le _, hclock⟩))
  exact haccepted ▸ bounded_logAfter hbounded _

/-- A check is rejected only if the log shows a full key among its own, and the log stays as it
is. -/
theorem logAnswer_error {error : AppError} (hlog : Ordered log a.1)
    (h : config.logAnswer log a = .error error) :
    (∃ rule ∈ config.rules a.2, 0 < rule.limit ∧ rule.limit ≤ ((log rule.key).filter fun time =>
      a.1 - config.windowMs ≤ time && time ≤ a.1).length) ∧
      next config.limitOf config.windowMs log (config.request a) = log := by
  constructor
  · rw [logAnswer] at h
    split_ifs at h
    rw [answerOf] at h
    cases hfind : (config.rules a.2).find? fun rule =>
        full _ _ log _ _ with
    | none =>
      rw [hfind] at h
      cases h
    | some rule =>
      have hrule := mem_of_find?_eq_some hfind
      have hfull := find?_some hfind
      simp only [full, Bool.and_eq_true, decide_eq_true_eq, ← rule_limit hrule] at hfull
      refine ⟨rule, hrule, hfull.1, le_trans hfull.2 (le_of_eq ?_)⟩
      refine congrArg _ (filter_congr fun time htime => ?_)
      simp [(hlog _).2 time htime]
  · rw [SlidingWindow.next, admits_eq_isOk, h]
    rfl

/-- With a clock that does not go back: for each key with a limit, no interval as long as the window
holds more accepted checks than the limit; a check is rejected only if one of its keys has as many
accepted checks in the window that ends now; and later checks are answered as if the rejected one
had not been made. -/
theorem rate_limits_hold (config : RateLimitConfig) {checks : List (ℕ × RateCall)}
    (hclock : (checks.map Prod.fst).Pairwise (· ≤ ·)) :
    (∀ c, ∀ rule ∈ config.rules c, 0 < rule.limit → ∀ t,
      ((config.acceptedTimes rule.key ∅ checks).filter fun time =>
        t ≤ time && time ≤ t + config.windowMs).length ≤ rule.limit) ∧
    ∀ before a after error, checks = before ++ a :: after →
      (config.call (runs config.pass ∅ before) a.1 a.2).1 = .error error →
      (∃ rule ∈ config.rules a.2, 0 < rule.limit ∧
        rule.limit ≤ ((config.acceptedTimes rule.key ∅ before).filter fun time =>
          a.1 - config.windowMs ≤ time && time ≤ a.1).length) ∧
      config.answers (config.pass (runs config.pass ∅ before) a) after =
        config.answers (runs config.pass ∅ before) after := by
  constructor
  · intro c _ hrule hpos t
    rw [rule_limit hrule]
    exact bounded_accepted _ hclock _ (rule_limit hrule ▸ hpos) t
  · rintro _ a _ _ rfl herror
    rw [map_append, pairwise_append] at hclock
    obtain ⟨hbefore, hafter, hcross⟩ := hclock
    obtain ⟨_, hlast, hfollows⟩ :=
      follows_accepted _ hbefore fun time htime => hcross time htime _ mem_cons_self
    obtain ⟨hanswer, hnext⟩ := hfollows.call hlast
    obtain ⟨hfull, hsame⟩ := logAnswer_error (hfollows.ordered.mono hlast)
      (hanswer.symm.trans herror)
    refine ⟨hfull, ?_⟩
    obtain ⟨hle, hrest⟩ := pairwise_cons.mp hafter
    rw [hsame] at hnext
    rw [pass, hnext.answers hafter, hfollows.answers (pairwise_cons.mpr
      ⟨fun time htime => hlast.trans (hle time htime), hrest⟩)]

/-- One request a second to each provider. -/
def onePerSecond : RateLimitConfig where
  enabled := true
  windowMs := 1000
  globalPerMinute := 0
  apiKeyPerMinute := 0
  ipPerMinute := 0
  providerPerMinute := 1
  modelPerMinute := 0

theorem onePerSecond_rejects : (onePerSecond.call (runs onePerSecond.pass ∅
    [(500, .checkProviderAttempt "openai" "o3")]) 1500 (.checkProviderAttempt "openai" "gpt")).1 =
      .error (.rateLimited "provider request rate limit exceeded; limit=1/1s" 1) := by
  decide +kernel

theorem onePerSecond_holds :
    let a : ℕ × RateCall := (1500, .checkProviderAttempt "openai" "gpt")
    let state := runs onePerSecond.pass ∅ [(500, .checkProviderAttempt "openai" "o3")]
    (onePerSecond.call state a.1 a.2).1.isOk = false ∧
      onePerSecond.answers (onePerSecond.pass state a) [(1501, a.2)] =
        onePerSecond.answers state [(1501, a.2)] := by
  have hclock : ([(500, .checkProviderAttempt "openai" "o3"),
      (1500, .checkProviderAttempt "openai" "gpt"),
      (1501, .checkProviderAttempt "openai" "gpt")].map (Prod.fst : ℕ × RateCall → ℕ)).Pairwise
        (· ≤ ·) := by
    decide
  exact ⟨by decide, ((rate_limits_hold _ hclock).2
    [(500, .checkProviderAttempt "openai" "o3")] _ [(1501, _)] _ rfl
    onePerSecond_rejects).2⟩

/-! ## When to come back -/

/-- The windows of the keys of a check that are at their limits. -/
def fullWindows (config : RateLimitConfig) (log : Log String) (a : ℕ × RateCall) : List (List ℕ) :=
  ((config.rules a.2).filter fun rule => full config.limitOf config.windowMs log a.1 rule.key).map
    fun rule => recent config.windowMs a.1 (log rule.key)

/-- The whole seconds until the oldest time of the first full window has left it are, for each full
window, more than its own oldest time needs. -/
def DelayCovers (config : RateLimitConfig) (log : Log String) (a : ℕ × RateCall) : Prop :=
  ∀ first ∈ (config.fullWindows log a).head?.bind head?, ∀ window ∈ config.fullWindows log a,
    ∀ oldest ∈ window.head?, oldest + config.windowMs <
      a.1 + 1000 * max (divCeil (saturate (first + config.windowMs) - a.1) 1000) 1

variable {message : String} {retryAfterSecs : ℕ}

theorem logAnswer_ok_iff (log : Log String) (a : ℕ × RateCall) : config.logAnswer log a = .ok () ↔
    ∀ k ∈ config.keys a.2, ¬full config.limitOf config.windowMs log a.1 k := by
  have hok : ∀ x : Except AppError Unit, x = .ok () ↔ x.isOk
    | .ok _ => iff_of_true rfl rfl
    | .error _ => iff_of_false nofun Bool.false_ne_true
  rw [hok, ← admits_eq_isOk, admits, all_eq_true]
  simp [request]

theorem logAnswer_later (hbounded : Bounded config.limitOf config.windowMs log)
    (hlog : Ordered log a.1)
    (h : config.logAnswer log a = .error (.rateLimited message retryAfterSecs)) :
    config.logAnswer log (a.1 + 1000 * retryAfterSecs, a.2) = .ok () ↔
      config.DelayCovers log a := by
  rw [logAnswer_ok_iff, keys]
  rw [logAnswer] at h
  split_ifs at h ⊢
  rw [answerOf] at h
  cases hfind : (config.rules a.2).find? fun rule =>
      full _ _ log _ _ with
  | none =>
    rw [hfind] at h
    cases h
  | some rule =>
    rw [hfind] at h
    have hhead : (config.fullWindows log a).head? =
        some (recent config.windowMs a.1 (log rule.key)) := by
      rw [fullWindows, head?_map, head?_filter, hfind]
      rfl
    have hfull := find?_some hfind
    cases hfirst : recent config.windowMs a.1 (log rule.key) with
    | nil => simp [full, hfirst, pos_iff_ne_zero] at hfull
    | cons first rest =>
      rw [hfirst] at hhead
      simp only [Option.map_some, rateLimited, hfirst, head?_cons, Option.getD_some] at h
      cases h
      rw [DelayCovers, hhead, fullWindows]
      simp only [forall_mem_map]
      simp [full_later hbounded hlog (le_add_right _ _)]

/-- A check that was rejected is admitted after the delay that the error names exactly if the delay,
which is counted from one full window, is long enough for all of them. -/
theorem retry_admitted_iff (config : RateLimitConfig) {before : List (ℕ × RateCall)}
    {a : ℕ × RateCall} {message : String} {retryAfterSecs : ℕ}
    (hclock : ((before ++ [a]).map Prod.fst).Pairwise (· ≤ ·))
    (hrejected : (config.call (runs config.pass ∅ before) a.1 a.2).1 =
      .error (.rateLimited message retryAfterSecs)) :
    (config.call (config.pass (runs config.pass ∅ before) a)
      (a.1 + 1000 * retryAfterSecs) a.2).1 = .ok () ↔
    config.DelayCovers (fun key => config.acceptedTimes key ∅ before) a := by
  rw [map_append, pairwise_append] at hclock
  obtain ⟨hbefore, -, hcross⟩ := hclock
  obtain ⟨_, hlast, hfollows⟩ :=
    follows_accepted config hbefore fun time htime => hcross time htime _ mem_cons_self
  have hlog := hfollows.ordered.mono hlast
  obtain ⟨hanswer, hnext⟩ := hfollows.call hlast
  have herror := hanswer.symm.trans hrejected
  rw [(logAnswer_error hlog herror).2] at hnext
  rw [pass, (hnext.call (a := (_, a.2)) (le_add_right _ _)).1]
  exact logAnswer_later (bounded_accepted _ hbefore) hlog herror

theorem onePerSecond_covers : onePerSecond.DelayCovers
    (fun key => onePerSecond.acceptedTimes key ∅ [(500, .checkProviderAttempt "openai" "o3")])
    (1500, .checkProviderAttempt "openai" "gpt") :=
  (retry_admitted_iff _ (by decide) onePerSecond_rejects).mp (by decide)

/-- A check at the time of the accepted one is told to come back after the whole window, at whose
end the accepted one still counts. -/
theorem retry_rejected :
    let a : ℕ × RateCall := (500, .checkProviderAttempt "openai" "gpt")
    let state := runs onePerSecond.pass ∅ [a]
    (onePerSecond.call state a.1 a.2).1 =
      .error (.rateLimited "provider request rate limit exceeded; limit=1/1s" 1) ∧
    (onePerSecond.call (onePerSecond.pass state a) (a.1 + 1000 * 1) a.2).1 ≠ .ok () := by
  decide +kernel

/-! ## Whose checks count -/

theorem logAnswer_congr {log' : Log String} (h : ∀ rule ∈ config.rules a.2, 0 < rule.limit →
      recent config.windowMs a.1 (log rule.key) = recent config.windowMs a.1 (log' rule.key)) :
    config.logAnswer log a = config.logAnswer log' a := by
  have hfull : ∀ rule ∈ config.rules a.2, full config.limitOf config.windowMs log a.1 rule.key =
      full config.limitOf config.windowMs log' a.1 rule.key := by
    intro rule hrule
    rw [full, full, ← rule_limit hrule, Bool.eq_iff_iff]
    simp +contextual [h rule hrule]
  rw [logAnswer, logAnswer, answerOf, answerOf, find?_congr hfull]
  congr 2
  refine Option.map_congr fun rule hfind => ?_
  have hrule := mem_of_find?_eq_some hfind
  have hlimited := find?_some hfind
  rw [full, ← rule_limit hrule] at hlimited
  rw [h rule hrule (by simp_all)]

theorem call_runs (hclock : ((before ++ [a]).map Prod.fst).Pairwise (· ≤ ·)) :
    (config.call (runs config.pass ∅ before) a.1 a.2).1 =
      config.logAnswer (fun key => config.acceptedTimes key ∅ before) a := by
  rw [map_append, pairwise_append] at hclock
  obtain ⟨_, hlast, hfollows⟩ := follows_accepted config hclock.1 fun time htime =>
    hclock.2.2 time htime _ mem_cons_self
  exact (hfollows.call hlast).1

/-- Checks under other keys change no answer: two histories whose accepted checks in the window are
the same for each limited key of a check give it the same answer. -/
theorem answer_isolated (config : RateLimitConfig) {before before' : List (ℕ × RateCall)}
    {a : ℕ × RateCall} (hclock : ((before ++ [a]).map Prod.fst).Pairwise (· ≤ ·))
    (hclock' : ((before' ++ [a]).map Prod.fst).Pairwise (· ≤ ·))
    (hsame : ∀ rule ∈ config.rules a.2, 0 < rule.limit →
      recent config.windowMs a.1 (config.acceptedTimes rule.key ∅ before) =
        recent config.windowMs a.1 (config.acceptedTimes rule.key ∅ before')) :
    (config.call (runs config.pass ∅ before) a.1 a.2).1 =
      (config.call (runs config.pass ∅ before') a.1 a.2).1 := by
  rw [call_runs hclock, call_runs hclock']
  exact logAnswer_congr hsame

theorem onePerSecond_isolated :
    let own : ℕ × RateCall := (600, .checkProviderAttempt "openai" "o3")
    let a : ℕ × RateCall := (1500, .checkProviderAttempt "openai" "gpt")
    let state := runs onePerSecond.pass ∅ [own, (900, .checkProviderAttempt "groq" "o3")]
    (onePerSecond.call state a.1 a.2).1 =
        (onePerSecond.call (runs onePerSecond.pass ∅ [own]) a.1 a.2).1 ∧
      (onePerSecond.call state a.1 a.2).1.isOk = false :=
  ⟨answer_isolated _ (by decide) (by decide) (by decide +kernel), by decide +kernel⟩

end RateLimitConfig

end RouteSmith.Model
