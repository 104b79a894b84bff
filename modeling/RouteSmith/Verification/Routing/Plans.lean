import RouteSmith.Verification.Routing.Catalog

/-! # Route plans

Every attempt of a plan is on a provider of the effective configuration. Its model is one the
provider lists, unless it was named by a selector, an alias, a default or a candidate of a group:
there the list is not consulted.
-/

namespace RouteSmith.Model

open Store Text List

variable {env : String → Option String}

/-! ## Resolution -/

namespace AppConfig

variable {config : AppConfig}

/-- The model of a selector that names a provider and, perhaps, a model of it. -/
def selectedModel (provider : ProviderConfig) (model : String) : String :=
  if isEmpty (trim model) then provider.defaultModel else model

theorem resolveForProvider_some {id : String} {provider : ProviderConfig}
    (hprovider : config.providers.lookup id = some provider) (model : String) :
    config.resolveForProvider id (some model) =
      .ok ⟨id, provider, selectedModel provider model⟩ := by
  by_cases hempty : isEmpty (trim model) <;>
    simp [resolveForProvider, hprovider, selectedModel, hempty, Option.filter]

/-- A name that is neither empty nor a selector. -/
structure Bare (config : AppConfig) (requested : String) : Prop where
  nonempty : isEmpty requested = false
  not_selector : config.parseProviderModel requested = none

/-- The provider and the model a name stands for, where the provider's list of models has no
part in it. -/
inductive Unlisted (config : AppConfig) : (left : ℕ) → (requested id model : String) → Prop
  | empty {left : ℕ} {requested : String} {provider : ProviderConfig}
      (hempty : isEmpty requested = true)
      (hprovider : config.providers.lookup config.defaultProvider = some provider) :
      Unlisted config (left + 1) requested config.defaultProvider provider.defaultModel
  | selector {left : ℕ} {requested id model : String} {provider : ProviderConfig}
      (hnonempty : isEmpty requested = false)
      (hselector : config.parseProviderModel requested = some (id, model))
      (hprovider : config.providers.lookup id = some provider) :
      Unlisted config (left + 1) requested id (selectedModel provider model)
  | aliasSelector {left : ℕ} {requested target id model : String} {provider : ProviderConfig}
      (hbare : config.Bare requested) (halias : config.aliases.lookup requested = some target)
      (htarget : splitOnce ':' target = some (id, model))
      (hprovider : config.providers.lookup id = some provider) :
      Unlisted config (left + 1) requested id (selectedModel provider model)
  | aliasProvider {left : ℕ} {requested target : String} {provider : ProviderConfig}
      (hbare : config.Bare requested) (halias : config.aliases.lookup requested = some target)
      (htarget : splitOnce ':' target = none)
      (hprovider : config.providers.lookup target = some provider)
      (hmodel : requested ∉ provider.models) :
      Unlisted config (left + 1) requested target provider.defaultModel
  | aliasStep {left : ℕ} {requested target id model : String}
      (hbare : config.Bare requested) (halias : config.aliases.lookup requested = some target)
      (htarget : splitOnce ':' target = none) (hprovider : config.providers.lookup target = none)
      (h : Unlisted config left target id model) :
      Unlisted config (left + 1) requested id model
  | default {left : ℕ} {requested : String} {provider : ProviderConfig}
      (hbare : config.Bare requested) (halias : config.aliases.lookup requested = none)
      (hexact : config.findProviderByExactModel requested = none)
      (hprovider : config.providers.lookup config.defaultProvider = some provider) :
      Unlisted config (left + 1) requested config.defaultProvider provider.defaultModel

theorem findProvider_some {accepts : ProviderConfig → Bool} {id : String}
    {provider : ProviderConfig} (h : config.findProvider accepts = some (id, provider)) :
    config.providers.lookup id = some provider ∧ accepts provider = true := by
  obtain ⟨_, -, h⟩ := exists_of_findSome?_eq_some h
  obtain ⟨_, h, hpair⟩ := Option.map_eq_some_iff.mp h
  cases hpair
  exact Option.filter_eq_some_iff.mp h

end AppConfig

open AppConfig

section

variable {control : ControlInner} {config : AppConfig}

theorem Reviewed.findProviderByModelPrefix (h : Reviewed control config) (model : String) :
    config.findProviderByModelPrefix model = none := by
  rw [Option.eq_none_iff_forall_ne_some]
  rintro ⟨id, _⟩ hfound
  obtain ⟨hprovider, haccepts⟩ := findProvider_some hfound
  simp [(h.exact_names id _ hprovider).1] at haccepts

variable {left : ℕ} {id requested : String} {r : ResolvedProvider}

theorem Reviewed.resolveInner_of_unlisted (h : Reviewed control config) {model : String}
    (hunlisted : config.Unlisted left requested id model) :
    ∃ provider, config.providers.lookup id = some provider ∧
      config.resolveInner left requested = .ok ⟨id, provider, model⟩ := by
  induction hunlisted with
  | empty hempty hprovider =>
    exact ⟨_, hprovider, by simp [resolveInner, hempty, resolveForProvider, hprovider]⟩
  | selector hnonempty hselector hprovider =>
    exact ⟨_, hprovider, by
      simp [resolveInner, hnonempty, hselector, resolveForProvider_some hprovider]⟩
  | aliasSelector hbare halias htarget hprovider =>
    have hmem := NameMap.mem_iff_exists_lookup.mpr ⟨_, hprovider⟩
    exact ⟨_, hprovider, by
      simp [resolveInner, hbare.nonempty, hbare.not_selector, halias,
        resolveAliasTarget, htarget, hmem, resolveForProvider_some hprovider]⟩
  | aliasProvider hbare halias htarget hprovider hmodel =>
    exact ⟨_, hprovider, by
      simp [resolveInner, hbare.nonempty, hbare.not_selector, halias,
        resolveAliasTarget, htarget, hprovider, hmodel]⟩
  | aliasStep hbare halias htarget hprovider _ ih =>
    obtain ⟨provider, hfound, hresolve⟩ := ih
    exact ⟨provider, hfound, by
      simp [resolveInner, hbare.nonempty, hbare.not_selector, halias,
        resolveAliasTarget, htarget, hprovider, hresolve]⟩
  | default hbare halias hexact hprovider =>
    exact ⟨_, hprovider, by
      simp [resolveInner, hbare.nonempty, hbare.not_selector, halias, hexact,
        h.findProviderByModelPrefix, hprovider, (h.exact_names _ _ hprovider).2]⟩

/-- A resolved provider is one of the configuration's, and its model is listed by the provider
or was named without the list. -/
def Resolved (config : AppConfig) (left : ℕ) (requested : String) (r : ResolvedProvider) : Prop :=
  config.providers.lookup r.providerId = some r.provider ∧
    (r.model ∈ r.provider.models ∨ config.Unlisted left requested r.providerId r.model)

theorem Resolved.of_selector {model : String}
    (h : config.resolveForProvider id (some model) = .ok r)
    (hunlisted : ∀ provider, config.providers.lookup id = some provider →
      config.Unlisted left requested id (selectedModel provider model)) :
    Resolved config left requested r := by
  cases hprovider : config.providers.lookup id with
  | none => simp [resolveForProvider, hprovider] at h
  | some provider =>
    rw [resolveForProvider_some hprovider] at h
    cases h
    dsimp only [Resolved]
    exact ⟨hprovider, .inr (hunlisted _ hprovider)⟩

theorem Resolved.of_aliasTarget {target : String} (hbare : config.Bare requested)
    (halias : config.aliases.lookup requested = some target)
    (hinner : ∀ r, config.resolveInner left target = .ok r → Resolved config left target r)
    (h : config.resolveAliasTarget requested target (config.resolveInner left) = .ok r) :
    Resolved config (left + 1) requested r := by
  rw [resolveAliasTarget] at h
  split at h
  · next id model htarget =>
    split_ifs at h
    exact .of_selector h fun _ => .aliasSelector hbare halias htarget
  · next htarget =>
    split at h
    · next provider hprovider =>
      cases h
      refine ⟨hprovider, ?_⟩
      by_cases hmodel : requested ∈ provider.models
      · simp [hmodel]
      · simpa [hmodel] using .inr (.aliasProvider hbare halias htarget hprovider hmodel)
    · next hprovider =>
      obtain ⟨hfound, hlisted⟩ := hinner r h
      exact ⟨hfound, hlisted.imp_right (.aliasStep hbare halias htarget hprovider)⟩

theorem Reviewed.resolved (h : Reviewed control config)
    (hresolve : config.resolveInner left requested = .ok r) : Resolved config left requested r := by
  -- the induction follows the chain of aliases
  induction left generalizing requested r with
  | zero => cases hresolve
  | succ left ih =>
    rw [resolveInner] at hresolve
    split_ifs at hresolve with hempty
    · cases hprovider : config.providers.lookup config.defaultProvider with
      | none => simp [resolveForProvider, hprovider] at hresolve
      | some =>
        simp only [resolveForProvider, hprovider, Except.ok.injEq] at hresolve
        subst hresolve
        exact ⟨hprovider, .inr (.empty hempty hprovider)⟩
    · simp only [Bool.not_eq_true] at hempty
      split at hresolve
      · next hselector =>
        exact .of_selector hresolve fun _ => .selector hempty hselector
      · next hselector =>
        have hbare : config.Bare requested := ⟨hempty, hselector⟩
        split at hresolve
        · next halias => exact .of_aliasTarget hbare halias (fun _ => ih) hresolve
        · next halias =>
          rw [h.findProviderByModelPrefix] at hresolve
          split at hresolve
          · next hexact =>
            cases hresolve
            obtain ⟨hprovider, hmodel⟩ := findProvider_some hexact
            exact ⟨hprovider, .inl (by simpa using hmodel)⟩
          · next hexact =>
            dsimp only at hresolve
            split at hresolve
            · cases hresolve
            · next provider hprovider =>
              cases hresolve
              refine ⟨hprovider, .inr ?_⟩
              rw [(h.exact_names _ _ hprovider).2]
              exact .default hbare halias hexact hprovider

/-! ## Static plans -/

/-- What is asked of each attempt of a plan. -/
structure Routable (control : ControlInner) (config : AppConfig) (a : ResolvedProvider) : Prop where
  present : config.providers.lookup a.providerId = some a.provider
  not_deleted : a.providerId ∉ control.deletedProviders
  enabled : a.providerId ∉ control.disabledProviders
  model_enabled : control.modelDisabled a.providerId a.model = false

theorem Reviewed.routable_iff (h : Reviewed control config) {a : ResolvedProvider}
    (hpresent : config.providers.lookup a.providerId = some a.provider) :
    Routable control config a ↔ control.modelDisabled a.providerId a.model = false := by
  have hmem := NameMap.mem_iff_exists_lookup.mpr ⟨_, hpresent⟩
  exact ⟨Routable.model_enabled,
    fun hmodel => ⟨hpresent, h.not_deleted _ hmem, h.enabled _ hmem, hmodel⟩⟩

theorem Reviewed.fallbackModelForProvider_eq (h : Reviewed control config)
    {provider : ProviderConfig} (hprovider : config.providers.lookup id = some provider)
    (requested primary : String) : fallbackModelForProvider provider requested primary =
      [requested, primary].find? (· ∈ provider.models) := by
  obtain ⟨hprefixes, hpassthrough⟩ := h.exact_names id _ hprovider
  simp [fallbackModelForProvider, hprefixes, hpassthrough]

theorem mem_fallbackAttempts {now : ℕ} {primary a : ResolvedProvider} :
    a ∈ fallbackAttempts env control now config requested primary ↔
      ∃ id ∈ config.providerOrder, id ≠ primary.providerId ∧
        control.providerInCooldown env id now = false ∧
        ∃ provider, config.providers.lookup id = some provider ∧
          ∃ model, fallbackModelForProvider provider requested primary.model = some model ∧
            ⟨id, provider, model⟩ = a := by
  simp only [fallbackAttempts, mem_filterMap, Option.ite_none_left_eq_some, Bool.or_eq_true,
    decide_eq_true_eq, not_or, Bool.not_eq_true, Option.bind_eq_bind, Option.bind_eq_some_iff,
    Option.pure_def, Option.some.injEq, and_assoc]

end

variable {request : RoutingRequest}

/-- Another provider, out of cooldown, lists the requested name or the primary model. -/
def HasFallback (env : String → Option String) (request : RoutingRequest) (id model : String) :
    Prop :=
  ∃ other ∈ request.config.providerOrder, other ≠ id ∧ request.inCooldown env other = false ∧
    ∃ provider, request.config.providers.lookup other = some provider ∧
      (request.requestedModel ∈ provider.models ∨ model ∈ provider.models)

/-- Another provider, out of cooldown, takes the requested name or the primary model. -/
def TakesOver (env : String → Option String) (request : RoutingRequest) (id model : String) :
    Prop :=
  ∃ other ∈ request.config.providerOrder, other ≠ id ∧ request.inCooldown env other = false ∧
    ∃ provider, request.config.providers.lookup other = some provider ∧
      (fallbackModelForProvider provider request.requestedModel model).isSome

/-- The primary attempt stays in a static plan. -/
def KeepsPrimary (env : String → Option String) (request : RoutingRequest) (id model : String) :
    Prop :=
  isExplicitProviderSelector request.config request.requestedModel = true ∨
    request.inCooldown env id = false ∨ ¬HasFallback env request id model

theorem takesOver_iff (primary : ResolvedProvider) :
    TakesOver env request primary.providerId primary.model ↔
      fallbackAttempts env request.control request.now request.config request.requestedModel
        primary ≠ [] := by
  rw [Ne, eq_nil_iff_forall_not_mem, not_forall_not]
  simp only [mem_fallbackAttempts, TakesOver, Option.isSome_iff_exists]
  constructor
  · rintro ⟨other, horder, hne, hcooldown, provider, hprovider, model, hmodel⟩
    exact ⟨_, other, horder, hne, hcooldown, provider, hprovider, model, hmodel, rfl⟩
  · rintro ⟨_, other, horder, hne, hcooldown, provider, hprovider, model, hmodel, -⟩
    exact ⟨other, horder, hne, hcooldown, provider, hprovider, model, hmodel⟩

theorem mem_staticRouteAttempts {primary a : ResolvedProvider} : a ∈ staticRouteAttempts env
      request.control request.now request.config request.requestedModel primary ↔
    (a = primary ∧ (isExplicitProviderSelector request.config request.requestedModel = true ∨
      request.inCooldown env primary.providerId = false ∨
        ¬TakesOver env request primary.providerId primary.model)) ∨
    (isExplicitProviderSelector request.config request.requestedModel = false ∧
      a ∈ fallbackAttempts env request.control request.now request.config
        request.requestedModel primary) := by
  rw [staticRouteAttempts, takesOver_iff, RoutingRequest.inCooldown]
  generalize fallbackAttempts env request.control request.now request.config
    request.requestedModel _ = fallbacks
  cases isExplicitProviderSelector request.config request.requestedModel <;>
    cases request.control.providerInCooldown env primary.providerId request.now <;>
    cases fallbacks <;> simp

namespace Reviewed

variable (h : Reviewed request.control request.config)

include h

theorem routable_of_mem_fallbackAttempts {primary a : ResolvedProvider}
    (ha : a ∈ fallbackAttempts env request.control request.now request.config
      request.requestedModel primary) : Routable request.control request.config a := by
  obtain ⟨id, -, -, -, provider, hprovider, model, hmodel, rfl⟩ := mem_fallbackAttempts.mp ha
  rw [h.fallbackModelForProvider_eq hprovider] at hmodel
  have hlisted : model ∈ provider.models := by simpa using find?_some hmodel
  exact (h.routable_iff hprovider).mpr (h.listed id _ hprovider _ hlisted)

theorem hasFallback_iff (env : String → Option String) (id model : String) :
    HasFallback env request id model ↔ TakesOver env request id model := by
  refine exists_congr fun _ => and_congr_right fun _ => and_congr_right fun _ =>
    and_congr_right fun _ => exists_congr fun _ => and_congr_right fun hprovider => ?_
  rw [h.fallbackModelForProvider_eq hprovider]
  simp

end Reviewed

/-! ## Plans of a group -/

/-- A candidate that passes every check but the one for the cooldown. -/
structure Ready (env : String → Option String) (request : RoutingRequest)
    (candidate : RouteCandidateConfig) (provider : ProviderConfig) : Prop where
  enabled : candidate.enabled = true
  present : request.config.providers.lookup candidate.provider = some provider
  credential : request.credentialAvailable env candidate.provider provider = true
  capability :
    (request.validateProvider ⟨candidate.provider, provider, candidate.model⟩).isOk = true
  quotas : (request.checkQuotas candidate.model candidate.provider).isOk = true

/-- The candidates a group's plan is made of: the ready ones out of cooldown or, where there are
none, all ready ones. -/
def Chosen (env : String → Option String) (request : RoutingRequest)
    (candidates : List RouteCandidateConfig) (candidate : RouteCandidateConfig)
    (provider : ProviderConfig) : Prop :=
  Ready env request candidate provider ∧ (request.inCooldown env candidate.provider = false ∨
    ∀ other ∈ candidates, ∀ provider, Ready env request other provider →
      request.inCooldown env other.provider = true)

variable {filterCooldown : Bool} {r : ResolvedProvider} {candidates : List RouteCandidateConfig}

variable {candidate : RouteCandidateConfig}
  {verdicts : List (Except AppError (Except Rejection ScoredCandidate))} {groupId : String}
  {group : RouteGroupConfig}

theorem candidateRejection_ok_iff :
    candidateRejection env request candidate filterCooldown = .ok (.ok r) ↔
      ∃ provider, Ready env request candidate provider ∧
        (filterCooldown = true → request.inCooldown env candidate.provider = false) ∧
        ⟨candidate.provider, provider, candidate.model⟩ = r := by
  constructor
  · intro h
    cases henabled : candidate.enabled with
    | false => simp [candidateRejection, henabled] at h
    | true =>
      cases hprovider : request.config.providers.lookup candidate.provider with
      | none => simp [candidateRejection, henabled, hprovider] at h
      | some provider =>
        simp only [candidateRejection, henabled, hprovider, Bool.not_true, Bool.false_eq_true,
          if_false] at h
        split_ifs at h with hcredential hcooldown hcapability
        · cases h
        · cases h
        · cases h
        cases hquotas : request.checkQuotas candidate.model candidate.provider with
        | error => simp [hquotas, Except.map] at h
        | ok =>
          simp only [hquotas, Except.map, Except.ok.injEq] at h
          refine ⟨provider, ⟨henabled, hprovider, by simpa using hcredential,
            by simpa using hcapability, by rw [hquotas]; rfl⟩, ?_, h⟩
          simpa using hcooldown
  · rintro ⟨_, hready, hcooldown, rfl⟩
    have hquotas := hready.quotas
    cases hq : request.checkQuotas candidate.model candidate.provider with
    | error => simp [hq, Except.toBool] at hquotas
    | ok =>
      cases filterCooldown <;>
        simp_all [candidateRejection, hready.enabled, hready.present, hready.credential,
          hready.capability, Except.map]

theorem Ready.candidateRejection_cooldown {provider : ProviderConfig}
    (h : Ready env request candidate provider)
    (hcooldown : request.inCooldown env candidate.provider = true) :
    candidateRejection env request candidate true = .ok (.error .providerCooldown) := by
  simp [candidateRejection, h.enabled, h.present, h.credential, hcooldown]

theorem rejectionCount_pos {rejection : Rejection} (h : .ok (.error rejection) ∈ verdicts) :
    0 < rejectionCount verdicts rejection :=
  countP_pos_iff.mpr ⟨_, h, by simp⟩

section

variable {passes passes' : RouteCandidateConfig → ProviderConfig → Prop}

open scoped Classical in
/-- The candidates that pass, in the order of the group. -/
noncomputable def RoutingRequest.scored (request : RoutingRequest)
    (passes : RouteCandidateConfig → ProviderConfig → Prop)
    (candidates : List RouteCandidateConfig) : List ScoredCandidate :=
  candidates.zipIdx.filterMap fun (candidate, originalIndex) =>
    ((request.config.providers.lookup candidate.provider).filter (passes candidate ·)).map
      fun provider => ⟨⟨candidate.provider, provider, candidate.model⟩, candidate.quality,
        candidate.latencyHintMs, originalIndex⟩

theorem scored_congr
    (h : ∀ candidate ∈ candidates, ∀ provider,
      passes candidate provider ↔ passes' candidate provider) :
    request.scored passes candidates = request.scored passes' candidates := by
  refine filterMap_congr fun ⟨_, _⟩ hmem => ?_
  have hpasses := funext fun provider =>
    propext (h _ (mem_of_getElem? (mem_zipIdx_iff_getElem?.mp hmem)) provider)
  dsimp only
  rw [hpasses]

theorem mem_scored : r ∈ (request.scored passes candidates).map (·.resolved) ↔
    ∃ candidate ∈ candidates, ∃ provider,
      request.config.providers.lookup candidate.provider = some provider ∧
        passes candidate provider ∧ ⟨candidate.provider, provider, candidate.model⟩ = r := by
  simp only [RoutingRequest.scored, mem_map, mem_filterMap, Option.map_eq_some_iff,
    Option.filter_eq_some_iff, decide_eq_true_eq, Prod.exists, mem_zipIdx_iff_getElem?]
  constructor
  · rintro ⟨_, ⟨candidate, index, hindex, provider, ⟨hprovider, hpasses⟩, rfl⟩, rfl⟩
    exact ⟨candidate, mem_of_getElem? hindex, provider, hprovider, hpasses, rfl⟩
  · rintro ⟨candidate, hcandidate, provider, hprovider, hpasses, rfl⟩
    obtain ⟨index, hindex⟩ := mem_iff_getElem?.mp hcandidate
    exact ⟨_, ⟨candidate, index, hindex, provider, ⟨hprovider, hpasses⟩, rfl⟩, rfl⟩

theorem scored_eq_nil (h : ∀ candidate ∈ candidates, ∀ provider, ¬passes candidate provider) :
    request.scored passes candidates = [] := by
  rw [← map_eq_nil_iff, eq_nil_iff_forall_not_mem]
  intro r hr
  obtain ⟨_, hcandidate, _, -, hpasses, -⟩ := mem_scored.mp hr
  exact h _ hcandidate _ hpasses

end

theorem eligible_candidateVerdicts :
    eligibleOf (candidateVerdicts env request candidates filterCooldown) =
      request.scored (fun candidate provider => Ready env request candidate provider ∧
        (filterCooldown = true → request.inCooldown env candidate.provider = false))
        candidates := by
  rw [eligibleOf, candidateVerdicts, filterMap_map, RoutingRequest.scored]
  refine filterMap_congr fun ⟨candidate, _⟩ _ => ?_
  by_cases hok : ∃ r, candidateRejection env request candidate filterCooldown = .ok (.ok r)
  · obtain ⟨r, hr⟩ := hok
    obtain ⟨provider, hready, hcooldown, rfl⟩ := candidateRejection_ok_iff.mp hr
    simpa [hr, hready.present, hready, Except.map] using hcooldown
  · have hnone : ∀ provider, ¬(Ready env request candidate provider ∧
        (filterCooldown = true → request.inCooldown env candidate.provider = false)) :=
      fun provider h => hok ⟨_, candidateRejection_ok_iff.mpr ⟨provider, h.1, h.2, rfl⟩⟩
    cases hr : candidateRejection env request candidate filterCooldown with
    | error => simp [hr, hnone, Except.map]
    | ok verdict =>
      cases verdict with
      | error => simp [hr, hnone, Except.map]
      | ok r => exact absurd ⟨r, hr⟩ hok

theorem eligible_groupVerdicts : eligibleOf (groupVerdicts env request candidates) =
    request.scored (Chosen env request candidates) candidates := by
  rw [groupVerdicts]
  by_cases hall : ∀ other ∈ candidates, ∀ provider, Ready env request other provider →
      request.inCooldown env other.provider = true
  · have hnone : eligibleOf (candidateVerdicts env request candidates true) = [] := by
      rw [eligible_candidateVerdicts]
      refine scored_eq_nil fun candidate hcandidate provider ⟨hready, hcooldown⟩ => ?_
      simpa [hall _ hcandidate _ hready] using hcooldown rfl
    split_ifs with hcount
    · rw [eligible_candidateVerdicts]
      exact scored_congr fun _ _ _ => by simp [Chosen, eq_true hall]
    · -- a ready candidate would have been counted as passed over for its cooldown
      rw [hnone]
      refine (scored_eq_nil fun candidate hcandidate provider hchosen => hcount
        ⟨by rw [hnone]; rfl, rejectionCount_pos ?_⟩).symm
      obtain ⟨index, hindex⟩ := mem_iff_getElem?.mp hcandidate
      refine mem_map.mpr ⟨(candidate, index), mem_zipIdx_iff_getElem?.mpr hindex, ?_⟩
      dsimp only
      rw [hchosen.1.candidateRejection_cooldown (hall _ hcandidate _ hchosen.1)]
      rfl
  · have hsome : ¬(eligibleOf (candidateVerdicts env request candidates true)).isEmpty := by
      push Not at hall
      obtain ⟨candidate, hcandidate, provider, hready, hcooldown⟩ := hall
      rw [eligible_candidateVerdicts, List.isEmpty_iff, ← map_eq_nil_iff]
      exact ne_nil_of_mem (mem_scored.mpr ⟨candidate, hcandidate, provider, hready.present,
        ⟨hready, fun _ => Bool.eq_false_iff.mpr hcooldown⟩, rfl⟩)
    rw [if_neg fun hcount => hsome hcount.1, eligible_candidateVerdicts]
    exact scored_congr fun _ _ _ => by simp [Chosen, hall]

theorem groupPlan_forall_iff {P : ResolvedProvider → Prop} :
    (∀ attempts, groupPlan env request groupId group = .ok attempts → ∀ a ∈ attempts, P a) ↔
      ∀ a ∈ (eligibleOf (groupVerdicts env request group.candidates)).map (·.resolved), P a := by
  rw [groupPlan]
  dsimp only
  generalize groupVerdicts env request group.candidates = verdicts
  by_cases hempty : (eligibleOf verdicts).isEmpty
  · rw [if_pos hempty, isEmpty_iff.mp hempty]
    split <;> [skip; split_ifs] <;> simp
  · split_ifs <;> simp

/-! ## What a plan names -/

/-- The provider and the model of an attempt that no list of models was consulted for. -/
def NamedOutsideLists (env : String → Option String) (request : RoutingRequest)
    (id model : String) : Prop :=
  match request.config.smartRouteGroup request.requestedModel with
  | none =>
    request.config.Unlisted 9 (trim request.requestedModel) id model ∧
      KeepsPrimary env request id model
  | some (_, group) =>
    ∃ candidate ∈ group.candidates, ∃ provider,
      Chosen env request group.candidates candidate provider ∧
        candidate.provider = id ∧ candidate.model = model

theorem Reviewed.staticPlan_routable_iff (h : Reviewed request.control request.config) :
    (∀ attempts, staticPlan env request = .ok attempts →
        ∀ a ∈ attempts, Routable request.control request.config a) ↔
      ∀ id model, request.config.Unlisted 9 (trim request.requestedModel) id model ∧
        KeepsPrimary env request id model → request.control.modelDisabled id model = false := by
  constructor
  · rintro hplan id model ⟨hunlisted, hkeeps⟩
    rw [KeepsPrimary, h.hasFallback_iff] at hkeeps
    obtain ⟨provider, -, hresolve⟩ := h.resolveInner_of_unlisted hunlisted
    have hstatic : staticPlan env request = .ok (staticRouteAttempts env request.control
        request.now request.config request.requestedModel ⟨id, provider, model⟩) := by
      rw [staticPlan, resolve, hresolve]
      rfl
    exact (hplan _ hstatic _ (mem_staticRouteAttempts.mpr (.inl ⟨rfl, hkeeps⟩))).model_enabled
  · intro hcondition _ hplan a ha
    rw [staticPlan, bind_eq_ok_iff] at hplan
    obtain ⟨_, hresolve, hplan⟩ := hplan
    cases hplan
    obtain ⟨hprovider, hlisted⟩ := h.resolved hresolve
    rcases mem_staticRouteAttempts.mp ha with ⟨rfl, hkeeps⟩ | ⟨-, ha⟩
    · refine (h.routable_iff hprovider).mpr ?_
      rcases hlisted with hlisted | hunlisted
      · exact h.listed _ _ hprovider _ hlisted
      · rw [← h.hasFallback_iff] at hkeeps
        exact hcondition _ _ ⟨hunlisted, hkeeps⟩
    · exact h.routable_of_mem_fallbackAttempts ha

theorem Reviewed.groupPlan_routable_iff (h : Reviewed request.control request.config) :
    (∀ attempts, groupPlan env request groupId group = .ok attempts →
        ∀ a ∈ attempts, Routable request.control request.config a) ↔
      ∀ id model, (∃ candidate ∈ group.candidates, ∃ provider,
        Chosen env request group.candidates candidate provider ∧
          candidate.provider = id ∧ candidate.model = model) →
        request.control.modelDisabled id model = false := by
  rw [groupPlan_forall_iff, eligible_groupVerdicts]
  simp only [mem_scored]
  constructor
  · rintro hplan _ _ ⟨candidate, hcandidate, provider, hchosen, rfl, rfl⟩
    exact (hplan _ ⟨candidate, hcandidate, provider, hchosen.1.present, hchosen, rfl⟩).model_enabled
  · rintro hcondition _ ⟨candidate, hcandidate, provider, -, hchosen, rfl⟩
    exact (h.routable_iff hchosen.1.present).mpr
      (hcondition _ _ ⟨candidate, hcandidate, provider, hchosen, rfl, rfl⟩)

/-- Every attempt of a plan is on a provider of the effective configuration that is enabled and
not deleted and on a model that is not disabled for it, iff no model is disabled that the plan
takes from a selector, an alias, a default or a candidate of a group. -/
theorem plan_routable_iff {base : AppConfig}
    (hconfig : request.config = effectiveConfig env base request.control) :
    (∀ attempts, plan env request = .ok attempts →
        ∀ a ∈ attempts, Routable request.control request.config a) ↔
      ∀ id model, NamedOutsideLists env request id model →
        request.control.modelDisabled id model = false := by
  have h := hconfig ▸ effectiveConfig_reviewed env _ _
  cases hgroup : request.config.smartRouteGroup request.requestedModel with
  | none =>
    simp only [plan, NamedOutsideLists, hgroup]
    exact h.staticPlan_routable_iff
  | some =>
    simp only [plan, NamedOutsideLists, hgroup]
    exact h.groupPlan_routable_iff

/-- A reviewed catalog of one local provider, with an alias and a group, and a control plane that
has disabled one of the provider's two models. -/
def sampleRouting (requestedModel : String) : RoutingRequest :=
  let base : AppConfig := {
    defaultProvider := "local_qwen"
    providerOrder := ["local_qwen"]
    providers := AList.singleton "local_qwen"
      { protocol := .openaiCompat, baseUrl := "http://127.0.0.1:8080/v1"
        defaultModel := "qwen-small", models := ["qwen-small", "qwen-large"] }
    aliases := AList.singleton "big" "local_qwen:qwen-large"
    smartRouting := {
      groups := AList.singleton "auto"
        { aliases := ["smart"]
          candidates := [{ provider := "local_qwen", model := "qwen-large" }] } } }
  let control : ControlInner := {
    providerModelOverrides :=
      AList.singleton "local_qwen" (AList.singleton "qwen-large" ⟨"disabled"⟩) }
  { config := effectiveConfig (fun _ => none) base control
    control := control
    now := 0
    requestedModel := requestedModel
    validateProvider := fun _ => .ok ()
    checkQuotas := fun _ _ => .ok ()
    scoresAbove := fun _ _ => false
    activationBucket := 0 }

/-- A request for the model that is left is planned on it. -/
theorem plan_routable_iff_sample :
    (plan (fun _ => none) (sampleRouting "qwen-small")).toOption.isSome = true ∧
      ((∀ attempts, plan (fun _ => none) (sampleRouting "qwen-small") = .ok attempts →
          ∀ a ∈ attempts, Routable (sampleRouting "qwen-small").control
            (sampleRouting "qwen-small").config a) ↔
        ∀ id model, NamedOutsideLists (fun _ => none) (sampleRouting "qwen-small") id model →
          (sampleRouting "qwen-small").control.modelDisabled id model = false) :=
  ⟨by decide, plan_routable_iff rfl⟩

/-- A selector, an alias and a group each put the disabled model into a plan. -/
theorem plan_names_disabled_model :
    (["local_qwen:qwen-large", "big", "smart"].map fun requested =>
      ((plan (fun _ => none) (sampleRouting requested)).toOption.map
          (·.map fun a => (a.providerId, a.model)),
        (sampleRouting requested).control.modelDisabled "local_qwen" "qwen-large")) =
      List.replicate 3 (some [("local_qwen", "qwen-large")], true) := by
  decide

end RouteSmith.Model
